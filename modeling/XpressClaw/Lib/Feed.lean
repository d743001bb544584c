import Mathlib.Data.List.Nodup
import Mathlib.Data.List.Sort

/-!
# A feed read entry by entry

Entries have keys in a linear order.  A reader that takes the least entry it has not passed
yet, and remembers its key, goes through the entries in the order of their keys.

* `inOrder_filter` — sorting and filtering can be exchanged, when the keys are distinct.
* `inOrder_eq`, `inOrder_map`, `inOrder_insert` — a list in strict order is the sorted one; so
  is its image under a strictly monotone change, and the list with an entry put in its place.
* `inOrder_behind` — behind the least entry stand the others, in order.
* `drain_eq` — what a reader takes in any number of rounds is that much of the sorted list.
-/

namespace Lib.Feed

variable {α κ : Type} [LinearOrder κ] (key : α → κ)

/-- The entries in the order of their keys. -/
def inOrder (l : List α) : List α := l.mergeSort fun a b => decide (key a ≤ key b)

/-- Take the least entry that may be taken, and go on behind it. -/
def drain (l : List α) : ℕ → (α → Bool) → List α
  | 0, _ => []
  | n + 1, may =>
      match (inOrder key (l.filter may)).head? with
      | none => []
      | some a => a :: drain l n fun b => decide (key a < key b)

/-- What may be taken is all that lies behind some of it. -/
def Upward (may : α → Bool) : Prop := ∀ a b, may a = true → key a < key b → may b = true

section InOrder

variable {key} {l rest : List α} {a : α} {may : α → Bool}

theorem inOrder_perm (l : List α) : (inOrder key l).Perm l := List.mergeSort_perm _ _

theorem inOrder_sorted (l : List α) : (inOrder key l).Pairwise fun a b => key a ≤ key b := by
  have htrans (a b c : α) : decide (key a ≤ key b) = true → decide (key b ≤ key c) = true →
      decide (key a ≤ key c) = true := by
    simp only [decide_eq_true_eq]
    exact le_trans
  have htotal (a b : α) : (decide (key a ≤ key b) || decide (key b ≤ key a)) = true := by
    simpa using le_total (key a) (key b)
  apply (List.pairwise_mergeSort htrans htotal l).imp
  simp

/-- Distinct keys are in strict order. -/
theorem inOrder_strict (h : (l.map key).Nodup) :
    (inOrder key l).Pairwise fun a b => key a < key b := by
  have hkeys : ((inOrder key l).map key).Nodup := ((inOrder_perm l).map key).nodup_iff.2 h
  rw [List.Nodup, List.pairwise_map] at hkeys
  exact ((inOrder_sorted l).and hkeys).imp fun hab => lt_of_le_of_ne hab.1 hab.2

/-- There is one strict order of the same entries. -/
theorem eq_of_strict {l l' : List α} (hp : l.Perm l')
    (hl : l.Pairwise fun a b => key a < key b) (hl' : l'.Pairwise fun a b => key a < key b) :
    l = l' :=
  List.Perm.eq_of_pairwise (fun _ _ _ _ hab hba => absurd hab (lt_asymm hba)) hl hl' hp

theorem inOrder_filter_strict (h : (l.map key).Nodup) (may : α → Bool) :
    (inOrder key (l.filter may)).Pairwise fun a b => key a < key b :=
  inOrder_strict (h.sublist (List.filter_sublist.map key))

theorem inOrder_filter (h : (l.map key).Nodup) (may : α → Bool) :
    inOrder key (l.filter may) = (inOrder key l).filter may := by
  refine eq_of_strict ?_ (inOrder_filter_strict h may) ((inOrder_strict h).filter may)
  exact (inOrder_perm _).trans ((inOrder_perm l).filter may).symm

/-- A list of the entries in strict order is the sorted one. -/
theorem inOrder_eq {l' : List α} (hp : l'.Perm l) (hs : l'.Pairwise fun a b => key a < key b) :
    inOrder key l = l' := by
  have hkeys : (l'.map key).Nodup := List.pairwise_map.2 (hs.imp ne_of_lt)
  exact eq_of_strict ((inOrder_perm l).trans hp.symm)
    (inOrder_strict ((hp.map key).nodup_iff.1 hkeys)) hs

/-- A change of the entries that keeps the order of their keys. -/
theorem inOrder_map {β : Type} {key' : β → κ} {g : α → β} (h : (l.map key).Nodup)
    (hg : ∀ a ∈ l, ∀ b ∈ l, key a < key b → key' (g a) < key' (g b)) :
    inOrder key' (l.map g) = (inOrder key l).map g := by
  refine inOrder_eq ((inOrder_perm l).map g) (List.pairwise_map.2 ?_)
  refine (inOrder_strict h).imp_of_mem fun {a b} ha hb hab => ?_
  exact hg a ((inOrder_perm l).mem_iff.1 ha) b ((inOrder_perm l).mem_iff.1 hb) hab

/-- An entry is put between the ones before it and the ones behind it. -/
theorem inOrder_insert {m pre post : List α} {x : α} (h : (l.map key).Nodup)
    (hl : inOrder key l = pre ++ post) (hm : m.Perm (x :: l)) (hpre : ∀ a ∈ pre, key a < key x)
    (hpost : ∀ b ∈ post, key x < key b) : inOrder key m = pre ++ x :: post := by
  have hstrict := inOrder_strict h
  have hperm : (inOrder key l).Perm l := inOrder_perm l
  rw [hl] at hstrict hperm
  rw [List.pairwise_append] at hstrict
  refine inOrder_eq (List.perm_middle.trans ((hperm.cons x).trans hm.symm)) ?_
  refine List.pairwise_append.2 ⟨hstrict.1, hstrict.2.1.cons hpost, fun a ha b hb => ?_⟩
  rcases List.mem_cons.1 hb with rfl | hb
  · exact hpre a ha
  · exact hstrict.2.2 a ha b hb

/-- Behind the least entry stand the others. -/
theorem inOrder_behind (h : (l.map key).Nodup) (hup : Upward key may)
    (hhead : inOrder key (l.filter may) = a :: rest) :
    inOrder key (l.filter fun b => decide (key a < key b)) = rest := by
  rw [inOrder_filter h] at hhead ⊢
  have hstrict : (a :: rest).Pairwise fun a b => key a < key b := by
    rw [← hhead]
    exact (inOrder_strict h).filter may
  have hmay : may a = true := by
    have hmem : a ∈ (inOrder key l).filter may := by simp [hhead]
    exact (List.mem_filter.1 hmem).2
  -- what lies behind an entry that may be taken may be taken
  have hboth : (inOrder key l).filter (fun b => decide (key a < key b)) =
      ((inOrder key l).filter may).filter fun b => decide (key a < key b) := by
    rw [List.filter_filter]
    apply List.filter_congr
    intro b _
    by_cases hab : key a < key b
    · simp [hab, hup a b hmay hab]
    · simp [hab]
  rw [hboth, hhead, List.filter_cons_of_neg (by simp), List.filter_eq_self]
  intro b hb
  simpa using List.rel_of_pairwise_cons hstrict hb

theorem upward_behind (a : α) : Upward key fun b => decide (key a < key b) := by
  intro b c hb hbc
  rw [decide_eq_true_eq] at hb ⊢
  exact hb.trans hbc

/-- The rounds of a reader go through the entries in order. -/
theorem drain_eq (h : (l.map key).Nodup) (n : ℕ) (hup : Upward key may) :
    drain key l n may = (inOrder key (l.filter may)).take n := by
  induction n generalizing may with
  | zero => rfl
  | succ n ih =>
    rw [drain]
    cases hhead : inOrder key (l.filter may) with
    | nil => rfl
    | cons a rest =>
      simp only [List.head?_cons, List.take_succ_cons, List.cons.injEq, true_and]
      rw [ih (upward_behind a), inOrder_behind h hup hhead]

end InOrder

end Lib.Feed
