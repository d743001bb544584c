import Mathlib.Data.List.Basic
import XpressClaw.Lib.Prog

/-!
# Runs of a sequential store

A store that takes one operation after another: every operation is a transaction, and
an operation that fails leaves the store as it was.  A run is a list of operations.

* `runOps_invariant` — what every operation keeps, every run keeps.
* `runOps_rel` — the same for a relation between an earlier and a later store.
* `Along` — every operation of a run meets a condition on the store it finds, and the
  invariant rule for such runs (`Along.invariant`); `along_iff_prefixes` is the rule for a
  condition that is also necessary.
* `outputs` — what the operations of a run hand out, in order.
* `length_outputs_le_one` — what can be handed out once only is handed out at most once.
* `total`, `total_le_one` — the same for what operations make, counted.
-/

namespace Lib

variable {σ ω β : Type} {step : σ → ω → σ}

/-- The store after the operations of a list. -/
def runOps (step : σ → ω → σ) (s : σ) (ops : List ω) : σ := ops.foldl step s

@[simp] theorem runOps_nil (s : σ) : runOps step s [] = s := rfl

@[simp] theorem runOps_cons (s : σ) (o : ω) (ops : List ω) :
    runOps step s (o :: ops) = runOps step (step s o) ops := rfl

theorem runOps_append (s : σ) (ops ops' : List ω) :
    runOps step s (ops ++ ops') = runOps step (runOps step s ops) ops' := by
  simp [runOps]

theorem runOps_concat (s : σ) (ops : List ω) (o : ω) :
    runOps step s (ops ++ [o]) = step (runOps step s ops) o := by
  simp [runOps]

/-- What every operation keeps, every run keeps. -/
theorem runOps_invariant {I : σ → Prop} (hstep : ∀ s o, I s → I (step s o)) {s : σ} (hs : I s)
    (ops : List ω) : I (runOps step s ops) := by
  induction ops generalizing s with
  | nil => exact hs
  | cons o ops ih => exact ih (hstep s o hs)

/-- What every operation does to a store of an invariant, every run does. -/
theorem runOps_rel {I : σ → Prop} {R : σ → σ → Prop} (hstep : ∀ s o, I s → I (step s o))
    (hrefl : ∀ s, R s s) (htrans : ∀ s t u, R s t → R t u → R s u)
    (hrel : ∀ s o, I s → R s (step s o)) {s : σ} (hs : I s) (ops : List ω) :
    R s (runOps step s ops) := by
  induction ops generalizing s with
  | nil => exact hrefl s
  | cons o ops ih => exact htrans _ _ _ (hrel s o hs) (ih (hstep s o hs))

/-- Every operation of the run meets a condition on the store it finds. -/
def Along (step : σ → ω → σ) (P : σ → ω → Prop) : σ → List ω → Prop
  | _, [] => True
  | s, o :: ops => P s o ∧ Along step P (step s o) ops

instance Along.decidable {P : σ → ω → Prop} [∀ s o, Decidable (P s o)] :
    ∀ (s : σ) (ops : List ω), Decidable (Along step P s ops)
  | _, [] => inferInstanceAs (Decidable True)
  | s, o :: ops =>
      have : Decidable (Along step P (step s o) ops) := Along.decidable (step s o) ops
      inferInstanceAs (Decidable (P s o ∧ Along step P (step s o) ops))

theorem along_append {P : σ → ω → Prop} {s : σ} {ops ops' : List ω} :
    Along step P s (ops ++ ops') ↔ Along step P s ops ∧ Along step P (runOps step s ops) ops' := by
  induction ops generalizing s with
  | nil => simp [Along]
  | cons o ops ih => simp [Along, ih, and_assoc]

/-- What every operation that meets the condition keeps, every run of such operations keeps. -/
theorem Along.invariant {P : σ → ω → Prop} {I : σ → Prop}
    (hstep : ∀ s o, I s → P s o → I (step s o)) {s : σ} {ops : List ω} (h : Along step P s ops)
    (hs : I s) : I (runOps step s ops) := by
  induction ops generalizing s with
  | nil => exact hs
  | cons o ops ih => exact ih h.2 (hstep s o hs h.1)

/-- Where the condition on an operation is what keeps the invariant, the runs along which it holds
are those in which every store has the invariant. -/
theorem along_iff_prefixes {P : σ → ω → Prop} {I J : σ → Prop}
    (hJ : ∀ s o, I s → J s → J (step s o))
    (hI : ∀ s o, I s → J s → (P s o ↔ I (step s o))) {s : σ} (his : I s) (hjs : J s)
    (ops : List ω) :
    Along step P s ops ↔ ∀ before, before <+: ops → I (runOps step s before) := by
  induction ops generalizing s with
  | nil =>
    refine iff_of_true trivial fun before h => ?_
    rw [List.prefix_nil.1 h]
    exact his
  | cons o ops ih =>
    rw [Along, hI s o his hjs]
    constructor
    · rintro ⟨ho, halong⟩ before h
      cases before with
      | nil => exact his
      | cons p before =>
        obtain ⟨rfl, hbefore⟩ := List.cons_prefix_cons.1 h
        exact (ih ho (hJ s p his hjs)).1 halong before hbefore
    · intro h
      have ho : I (step s o) := h [o] (List.cons_prefix_cons.2 ⟨rfl, List.nil_prefix⟩)
      refine ⟨ho, (ih ho (hJ s o his hjs)).2 fun before hbefore => ?_⟩
      exact h (o :: before) (List.cons_prefix_cons.2 ⟨rfl, hbefore⟩)

/-- What the operations of a run hand out, in order. -/
def outputs (step : σ → ω → σ) (out : σ → ω → Option β) : σ → List ω → List β
  | _, [] => []
  | s, o :: ops => (out s o).toList ++ outputs step out (step s o) ops

variable {out : σ → ω → Option β}

theorem outputs_concat (s : σ) (ops : List ω) (o : ω) :
    outputs step out s (ops ++ [o]) =
      outputs step out s ops ++ (out (runOps step s ops) o).toList := by
  induction ops generalizing s with
  | nil => simp [outputs]
  | cons o' ops ih => simp [outputs, ih]

/-- What holds at every position of a list holds of every prefix with a last element. -/
theorem forall_prefix_concat {P : List ω → ω → Prop} {ops : List ω}
    (h : ∀ i < ops.length, ∀ o ∈ ops[i]?, P (ops.take i) o) {before : List ω} {o : ω}
    (hp : before ++ [o] <+: ops) : P before o := by
  obtain ⟨after, rfl⟩ := hp
  have hi := h before.length (by simp) o (by simp)
  simpa using hi

/-- Once the store has nothing more to give, no run hands anything out. -/
theorem outputs_eq_nil {Spent : σ → Prop} (hstay : ∀ s o, Spent s → Spent (step s o))
    (hnone : ∀ s o, Spent s → out s o = none) {s : σ} (hs : Spent s) (ops : List ω) :
    outputs step out s ops = [] := by
  induction ops generalizing s with
  | nil => rfl
  | cons o ops ih =>
    rw [outputs, hnone s o hs, ih (hstay s o hs)]
    rfl

/-- What is spent by being handed out is handed out at most once. -/
theorem length_outputs_le_one {I Spent : σ → Prop} (hstep : ∀ s o, I s → I (step s o))
    (hstay : ∀ s o, Spent s → Spent (step s o)) (hnone : ∀ s o, Spent s → out s o = none)
    (hspend : ∀ s o b, I s → out s o = some b → Spent (step s o)) {s : σ} (hs : I s)
    (ops : List ω) : (outputs step out s ops).length ≤ 1 := by
  induction ops generalizing s with
  | nil => simp [outputs]
  | cons o ops ih =>
    rw [outputs]
    cases h : out s o with
    | none => simpa using ih (hstep s o hs)
    | some b =>
      have hnil := outputs_eq_nil hstay hnone (hspend s o b hs h) ops
      simp [hnil]

/-- How much the operations of a run make. -/
def total (step : σ → ω → σ) (count : σ → ω → ℕ) : σ → List ω → ℕ
  | _, [] => 0
  | s, o :: ops => count s o + total step count (step s o) ops

variable {count : σ → ω → ℕ}

/-- Once nothing more can be made, no run makes anything. -/
theorem total_eq_zero {S : σ → Prop} (hstay : ∀ s o, S s → S (step s o))
    (hnone : ∀ s o, S s → count s o = 0) {s : σ} (hs : S s) (ops : List ω) :
    total step count s ops = 0 := by
  induction ops generalizing s with
  | nil => rfl
  | cons o ops ih => rw [total, hnone s o hs, ih (hstay s o hs)]

/-- What is made one at a time, and never again once it was made, is made at most once. -/
theorem total_le_one {I S : σ → Prop} (hstep : ∀ s o, I s → I (step s o))
    (hstay : ∀ s o, S s → S (step s o)) (hnone : ∀ s o, S s → count s o = 0)
    (hone : ∀ s o, I s → count s o ≤ 1)
    (hspend : ∀ s o, I s → count s o ≠ 0 → S (step s o)) {s : σ} (hs : I s) (ops : List ω) :
    total step count s ops ≤ 1 := by
  induction ops generalizing s with
  | nil => simp [total]
  | cons o ops ih =>
    rw [total]
    by_cases h : count s o = 0
    · rw [h, Nat.zero_add]
      exact ih (hstep s o hs)
    · rw [total_eq_zero hstay hnone (hspend s o hs h), Nat.add_zero]
      exact hone s o hs

end Lib
