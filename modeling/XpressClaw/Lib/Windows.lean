import Mathlib.Data.List.Sort

/-!
# Windows of numbered rows

Rows in ascending order of a number, and what a reader that goes on from number to number gets
of them.

* `window` — the rows numbered above `lo` and up to `hi`; `window_append` puts two together that
  meet.
* `newest` — `ORDER BY … DESC LIMIT n`, put back in ascending order: the last rows.
* `Ascending.newest_of_le` — with few enough rows these are all of them.
-/

namespace Lib

variable {α : Type*} (key : α → ℕ)

/-- The rows come in ascending order of their numbers. -/
def Ascending (rows : List α) : Prop := rows.Pairwise fun x y => key x < key y

/-- The rows numbered above `lo`, up to `hi`. -/
def window (lo hi : ℕ) (rows : List α) : List α := rows.filter fun x => lo < key x ∧ key x ≤ hi

/-- `ORDER BY … DESC LIMIT n`, and then in ascending order. -/
def newest (n : ℕ) (rows : List α) : List α :=
  ((rows.insertionSort fun x y => key y ≤ key x).take n).insertionSort fun x y => key x ≤ key y

variable {key} {rows more : List α} {lo mid hi n : ℕ}

/-! ## Windows -/

section Window

theorem mem_window {x : α} : x ∈ window key lo hi rows ↔ x ∈ rows ∧ lo < key x ∧ key x ≤ hi := by
  simp [window]

theorem window_eq_nil (h : hi ≤ lo) : window key lo hi rows = [] := by
  rw [window, List.filter_eq_nil_iff]
  intro x _
  simp only [decide_eq_true_eq, not_and, not_le]
  omega

/-- Rows that come later do not change a window that is closed. -/
theorem window_append_later (h : ∀ x ∈ more, hi < key x) :
    window key lo hi (rows ++ more) = window key lo hi rows := by
  have hnil : window key lo hi more = [] := by
    rw [window, List.filter_eq_nil_iff]
    intro x hx
    have := h x hx
    simp only [decide_eq_true_eq, not_and, not_le]
    omega
  rw [window, List.filter_append]
  exact (congrArg _ hnil).trans (List.append_nil _)

/-- **Two windows that meet.** -/
theorem Ascending.window_append (h : Ascending key rows) (hlo : lo ≤ mid) (hhi : mid ≤ hi) :
    window key lo mid rows ++ window key mid hi rows = window key lo hi rows := by
  induction rows with
  | nil => rfl
  | cons x rows ih =>
    obtain ⟨hx, hrows⟩ := List.pairwise_cons.1 h
    have ih := ih hrows
    by_cases hmid : key x ≤ mid
    · have hout : window key mid hi (x :: rows) = window key mid hi rows :=
        List.filter_cons_of_neg (by simp only [decide_eq_true_eq, not_and]; omega)
      rw [hout]
      by_cases hlow : lo < key x
      · have h1 : window key lo mid (x :: rows) = x :: window key lo mid rows :=
          List.filter_cons_of_pos (by simp only [decide_eq_true_eq]; omega)
        have h2 : window key lo hi (x :: rows) = x :: window key lo hi rows :=
          List.filter_cons_of_pos (by simp only [decide_eq_true_eq]; omega)
        rw [h1, h2, List.cons_append, ih]
      · have h1 : window key lo mid (x :: rows) = window key lo mid rows :=
          List.filter_cons_of_neg (by simp only [decide_eq_true_eq, not_and]; omega)
        have h2 : window key lo hi (x :: rows) = window key lo hi rows :=
          List.filter_cons_of_neg (by simp only [decide_eq_true_eq, not_and]; omega)
        rw [h1, h2, ih]
    · -- everything from `x` on is behind the first window
      have hnil : window key lo mid (x :: rows) = [] := by
        rw [window, List.filter_eq_nil_iff]
        intro y hy
        have hxy : key x ≤ key y := by
          rcases List.mem_cons.1 hy with rfl | hy
          · exact le_rfl
          · exact (hx y hy).le
        simp only [decide_eq_true_eq, not_and, not_le]
        omega
      rw [hnil, List.nil_append]
      refine List.filter_congr fun y hy => ?_
      have hxy : key x ≤ key y := by
        rcases List.mem_cons.1 hy with rfl | hy
        · exact le_rfl
        · exact (hx y hy).le
      rw [decide_eq_decide]
      omega

theorem Ascending.filter (h : Ascending key rows) (p : α → Bool) : Ascending key (rows.filter p) :=
  List.Pairwise.filter p h

theorem Ascending.window (h : Ascending key rows) : Ascending key (window key lo hi rows) :=
  h.filter _

theorem Ascending.concat {x : α} (h : Ascending key rows) (hx : ∀ y ∈ rows, key y < key x) :
    Ascending key (rows ++ [x]) := by
  refine List.pairwise_append.2 ⟨h, List.pairwise_singleton _ _, ?_⟩
  intro y hy z hz
  rw [List.mem_singleton.1 hz]
  exact hx y hy

end Window

/-! ## The newest rows -/

section Newest

theorem Ascending.nodup (h : Ascending key rows) : (rows.map key).Nodup :=
  List.pairwise_map.2 (h.imp fun h => h.ne)

/-- Of rows in ascending order the last ones. -/
theorem Ascending.newest_eq (h : Ascending key rows) :
    newest key n rows = rows.drop (rows.length - n) := by
  have hdesc : (rows.insertionSort fun x y => key y ≤ key x) = rows.reverse := by
    have hrev : rows.reverse.Pairwise fun x y => key y ≤ key x :=
      List.pairwise_reverse.2 (h.imp fun h => h.le)
    refine List.Perm.eq_of_pairwise ?_ (List.pairwise_insertionSort _ _) hrev
      ((List.perm_insertionSort _ _).trans (List.reverse_perm _).symm)
    intro x y hx hy hyx hxy
    exact List.inj_on_of_nodup_map h.nodup ((List.mem_insertionSort _).1 hx)
      (List.mem_reverse.1 hy) (le_antisymm hxy hyx)
  have hasc : (rows.drop (rows.length - n)).Pairwise fun x y => key x ≤ key y :=
    (h.sublist (List.drop_sublist _ _)).imp fun h => h.le
  rw [newest, hdesc, List.take_reverse]
  refine List.Perm.eq_of_pairwise ?_ (List.pairwise_insertionSort _ _) hasc
    ((List.perm_insertionSort _ _).trans (List.reverse_perm _))
  intro x y hx hy hxy hyx
  refine List.inj_on_of_nodup_map h.nodup ?_ (List.mem_of_mem_drop hy) (le_antisymm hxy hyx)
  exact List.mem_of_mem_drop (List.mem_reverse.1 ((List.mem_insertionSort _).1 hx))

theorem Ascending.newest_of_le (h : Ascending key rows) (hn : rows.length ≤ n) :
    newest key n rows = rows := by
  rw [h.newest_eq, Nat.sub_eq_zero_of_le hn, List.drop_zero]

theorem Ascending.newest (h : Ascending key rows) : Ascending key (Lib.newest key n rows) := by
  rw [h.newest_eq]
  exact List.Pairwise.sublist (List.drop_sublist _ _) h

theorem mem_of_mem_newest {x : α} (hx : x ∈ newest key n rows) : x ∈ rows :=
  (List.mem_insertionSort _).1 (List.mem_of_mem_take ((List.mem_insertionSort _).1 hx))

/-- The row with the highest number is among the newest. -/
theorem Ascending.mem_newest (h : Ascending key rows) (hn : 0 < n) {x : α} (hx : x ∈ rows)
    (hmax : ∀ y ∈ rows, key y ≤ key x) : x ∈ Lib.newest key n rows := by
  obtain ⟨front, back, rfl⟩ := List.append_of_mem hx
  have hback : back = [] := by
    rw [List.eq_nil_iff_forall_not_mem]
    intro y hy
    have hlt : key x < key y :=
      (List.pairwise_cons.1 (List.pairwise_append.1 h).2.1).1 y hy
    have hle := hmax y (by simp [hy])
    omega
  rw [h.newest_eq, hback]
  have hlen : (front ++ [x]).length - n ≤ front.length := by
    rw [List.length_append, List.length_singleton]
    omega
  rw [List.drop_append_of_le_length hlen]
  simp

end Newest

end Lib
