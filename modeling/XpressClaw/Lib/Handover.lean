import Mathlib.Data.List.Induction
import XpressClaw.Lib.Threads

/-!
# Taking turns

Threads under one protocol, of which one at a time has taken something from the
others: it claimed a row, or read one that it will write.  From that moment on it
keeps a protocol of its own, `H`, and may rely on more; the others keep `F`.

`Prog.Takes` says of a program that has taken nothing yet that every transaction of it
either keeps `F` or takes, and that after taking it is `Ok` under `H`.  The relation
`T s t p` describes a taking transaction, from the store `s` to the store `t`, with
`p` left to do.

* `Sys.sched_handover` — if nobody takes while another holder is still under way, every
  thread keeps the protocol of its role along every schedule, and the schedule says who
  took last, and when.
* `Sys.sched_passes` — a holder that the others wait for commits exactly the stores its
  program passes.
-/

namespace Lib

variable {σ ε α β : Type}

/-- What holders and the others owe each other, and how the store looks (`N`) as long
as nobody has taken. -/
structure Handover (F H : Protocol σ) (N : σ → Prop) : Prop where
  shared : F.Shared
  free : ∀ {s t}, F.Inv s → F.Guar s t → F.Inv t → H.Inv s → H.Rely s t ∧ H.Inv t
  held : ∀ {s t}, H.Inv s → H.Guar s t → H.Inv t → F.Inv t ∧ F.Rely s t
  untaken : ∀ {s t}, N s → F.Guar s t → N t

namespace Prog

variable {F H : Protocol σ}

/-- Every transaction keeps `F`, or takes; a holder is `Ok` under `H` and its result
satisfies `R`, the result of the others `Q`. -/
def Takes (F H : Protocol σ) (T : σ → σ → Prog σ ε α → Prop) (R : Except ε α → σ → Prop) :
    Prog σ ε α → σ → (Except ε α → σ → Prop) → Prop
  | ret r, s₀, Q => ∀ s, F.Rely s₀ s → F.Inv s → Q r s
  | stall, _, _ => True
  | act f k, s₀, Q => ∀ s, F.Rely s₀ s → F.Inv s →
      F.Inv (f s) ∧ F.Rely s (f s) ∧
        ((F.Guar s (f s) ∧ (k s).Takes F H T R (f s) Q) ∨
          (T s (f s) (k s) ∧ H.Inv (f s) ∧ (k s).Ok H (f s) R))

section

variable {T : σ → σ → Prog σ ε α → Prop} {R Q : Except ε α → σ → Prop} {p : Prog σ ε α} {s t : σ}

theorem Takes.later (h : p.Takes F H T R s Q) (hst : F.Rely s t) : p.Takes F H T R t Q := by
  cases p with
  | ret r => exact fun u hu hi => h u (F.trans hst hu) hi
  | stall => trivial
  | act f k => exact fun u hu hi => h u (F.trans hst hu) hi

theorem Takes.weaken {Q' : Except ε α → σ → Prop} (h : p.Takes F H T R s Q)
    (hQ : ∀ r t, Q r t → Q' r t) : p.Takes F H T R s Q' := by
  induction p generalizing s with
  | ret r => exact fun u hu hi => hQ r u (h u hu hi)
  | stall => trivial
  | act f k ih =>
    intro u hu hi
    obtain ⟨h1, h2, h3⟩ := h u hu hi
    exact ⟨h1, h2, h3.imp_left fun h => ⟨h.1, ih u h.2⟩⟩

/-- A program that never takes. -/
theorem Ok.takes (hF : F.Shared) (h : p.Ok F s Q) : p.Takes F H T R s Q := by
  induction p generalizing s with
  | ret r => exact h
  | stall => trivial
  | act f k ih =>
    intro u hu hi
    obtain ⟨h1, h2, h3⟩ := h u hu hi
    exact ⟨h2, hF h1, .inl ⟨h1, ih u h3⟩⟩

/-- A holder that has ended is like any thread that has ended. -/
theorem takes_of_ended (hend : p.Ended) (h : p.Ok H s R) (hs : H.Inv s)
    (hR : ∀ r, R r s → ∀ t, F.Rely s t → F.Inv t → Q r t) : p.Takes F H T R s Q := by
  cases p with
  | ret r => exact fun t ht hi => hR r (h s (H.refl s) hs) t ht hi
  | stall => trivial
  | act f k => exact hend.elim

end

/-- A sequence whose first part never takes. -/
theorem Ok.takes_bind {T : σ → σ → Prog σ ε β → Prop} {R Q : Except ε β → σ → Prop}
    {p : Prog σ ε α} {g : α → Prog σ ε β} {s : σ} (hF : F.Shared) (hs : F.Inv s)
    (hp : p.Ok F s fun r t => match r with
      | .ok a => (g a).Takes F H T R t Q
      | .error e => ∀ u, F.Rely t u → F.Inv u → Q (.error e) u) :
    (p.bind g).Takes F H T R s Q := by
  induction p generalizing s with
  | ret r =>
    have h := hp s (F.refl s) hs
    cases r with
    | ok a => exact h
    | error e => exact h
  | stall => trivial
  | act f k ih =>
    intro u hu hi
    obtain ⟨h1, h2, h3⟩ := hp u hu hi
    exact ⟨h2, hF h1, .inl ⟨h1, ih u h2 h3⟩⟩

theorem ok_return {P : Protocol σ} {M : σ → Prop} {p : Prog σ ε α} {f : α → Except ε β} {s : σ}
    (hp : p.Ok P s fun _ t => M t) : (p.bind fun a => ret (f a)).Ok P s fun _ t => M t := by
  induction p generalizing s with
  | ret r => cases r <;> exact hp
  | stall => trivial
  | act g k ih =>
    intro u hu hi
    obtain ⟨h1, h2, h3⟩ := hp u hu hi
    exact ⟨h1, h2, ih u h3⟩

theorem Takes.mono {T T' : σ → σ → Prog σ ε α → Prop} {R Q : Except ε α → σ → Prop}
    {p : Prog σ ε α} {s : σ} (h : p.Takes F H T R s Q) (hT : ∀ s t q, T s t q → T' s t q) :
    p.Takes F H T' R s Q := by
  induction p generalizing s with
  | ret r => exact h
  | stall => trivial
  | act f k ih =>
    intro u hu hi
    obtain ⟨h1, h2, h3⟩ := h u hu hi
    exact ⟨h1, h2, h3.imp (fun h => ⟨h.1, ih u h.2⟩) fun h => ⟨hT _ _ _ h.1, h.2⟩⟩

/-- What becomes of the result at the end does not matter to a condition on the
store. -/
theorem takes_return {M N : σ → Prop} {T : σ → σ → Prog σ ε β → Prop} {p : Prog σ ε α}
    {f : α → Except ε β} {s : σ}
    (hp : p.Takes F H (fun s t q => T s t (q.bind fun a => ret (f a))) (fun _ t => M t) s
      fun _ t => N t) :
    (p.bind fun a => ret (f a)).Takes F H T (fun _ t => M t) s fun _ t => N t := by
  induction p generalizing s with
  | ret r => cases r <;> exact hp
  | stall => trivial
  | act g k ih =>
    intro u hu hi
    obtain ⟨h1, h2, h3⟩ := hp u hu hi
    refine ⟨h1, h2, ?_⟩
    rcases h3 with ⟨h3, h4⟩ | ⟨h3, h4, h5⟩
    · exact .inl ⟨h3, ih u h4⟩
    · exact .inr ⟨h3, h4, ok_return h5⟩

theorem takes_attempt {T : σ → σ → Prog σ ε (Except ε α) → Prop}
    {R Q : Except ε (Except ε α) → σ → Prop} {p : Prog σ ε α} {s : σ}
    (hp : p.Takes F H (fun s t q => T s t q.attempt) (fun r t => R (.ok r) t) s
      fun r t => Q (.ok r) t) : p.attempt.Takes F H T R s Q := by
  induction p generalizing s with
  | ret r => exact hp
  | stall => trivial
  | act f k ih =>
    intro u hu hi
    obtain ⟨h1, h2, h3⟩ := hp u hu hi
    refine ⟨h1, h2, ?_⟩
    rcases h3 with ⟨h3, h4⟩ | ⟨h3, h4, h5⟩
    · exact .inl ⟨h3, ih u h4⟩
    · exact .inr ⟨h3, h4, ok_attempt h5⟩

end Prog

namespace Sys

variable {F H : Protocol σ} {N : σ → Prop} {T : σ → σ → Prog σ ε α → Prop}
variable {R : Except ε α → σ → Prop} {Q : ℕ → Except ε α → σ → Prop}

/-- Nobody has taken yet. -/
structure Untaken (F H : Protocol σ) (N : σ → Prop) (T : σ → σ → Prog σ ε α → Prop)
    (R : Except ε α → σ → Prop) (Q : ℕ → Except ε α → σ → Prop) (c : Sys σ ε α) : Prop where
  inv : F.Inv c.store
  untaken : N c.store
  free : ∀ (j : ℕ) (p : Prog σ ε α), c.threads[j]? = some p → p.Takes F H T R c.store (Q j)

/-- Thread `i` has taken, and every thread keeps the protocol of its role. -/
structure HeldBy (F H : Protocol σ) (T : σ → σ → Prog σ ε α → Prop)
    (R : Except ε α → σ → Prop) (Q : ℕ → Except ε α → σ → Prop) (i : ℕ) (c : Sys σ ε α) :
    Prop where
  inv : F.Inv c.store
  held : H.Inv c.store
  holder : ∃ p, c.threads[i]? = some p ∧ p.Ok H c.store R
  free : ∀ (j : ℕ) (p : Prog σ ε α), c.threads[j]? = some p → j ≠ i →
    p.Takes F H T R c.store (Q j)

/-- The next commit of thread `i` takes. -/
def TakesNow (T : σ → σ → Prog σ ε α → Prop) (c : Sys σ ε α) (i : ℕ) : Prop :=
  ∃ f k, c.threads[i]? = some (.act f k) ∧ T c.store (f c.store) (k c.store)

/-- The program of a thread after a commit of thread `i`. -/
theorem getElem?_set_cases {c : Sys σ ε α} {i j : ℕ} {p q : Prog σ ε α}
    (h : (c.threads.set i q)[j]? = some p) : (j = i ∧ p = q) ∨
    (j ≠ i ∧ c.threads[j]? = some p) := by
  rw [List.getElem?_set] at h
  split at h
  · rename_i hij
    split at h
    · cases h
      exact .inl ⟨hij.symm, rfl⟩
    · cases h
  · rename_i hij
    exact .inr ⟨fun h => hij h.symm, h⟩

/-- A commit of another thread leaves a thread as it is. -/
theorem getElem?_step_ne (c : Sys σ ε α) {i j : ℕ} (h : j ≠ i) :
    (c.step j).threads[i]? = c.threads[i]? := by
  rcases c.step_cases j with hc | ⟨f, k, -, hc, -⟩
  · rw [hc]
  · rw [hc]
    exact List.getElem?_set_ne h

/-- A commit before anybody has taken: it keeps `F`, or it takes. -/
theorem Untaken.step (hFH : Handover F H N) {c : Sys σ ε α} (hc : c.Untaken F H N T R Q) (i : ℕ) :
    F.Rely c.store (c.step i).store ∧ ((c.step i).Untaken F H N T R Q ∨
      (c.TakesNow T i ∧ (c.step i).HeldBy F H T R Q i)) := by
  rcases c.step_cases i with h | ⟨f, k, -, h, hi⟩
  · rw [h]
    exact ⟨F.refl _, .inl hc⟩
  rw [h]
  have hlt : i < c.threads.length := (List.getElem?_eq_some_iff.1 hi).1
  obtain ⟨h1, h2, h3⟩ := hc.free i _ hi c.store (F.refl _) hc.inv
  refine ⟨h2, ?_⟩
  rcases h3 with ⟨h3, h4⟩ | ⟨h3, h4, h5⟩
  · refine .inl ⟨h1, hFH.untaken hc.untaken h3, fun j p hp => ?_⟩
    rcases getElem?_set_cases hp with ⟨rfl, rfl⟩ | ⟨-, hp⟩
    · exact h4
    · exact (hc.free j p hp).later h2
  · refine .inr ⟨⟨f, k, hi, h3⟩, h1, h4, ⟨_, List.getElem?_set_self hlt, h5⟩, fun j p hp hj => ?_⟩
    rcases getElem?_set_cases hp with ⟨rfl, -⟩ | ⟨-, hp⟩
    · exact absurd rfl hj
    · exact (hc.free j p hp).later h2

/-- A commit of another thread that takes nothing keeps to what the holder relies on. -/
theorem HeldBy.rely (hFH : Handover F H N) {c : Sys σ ε α} {i j : ℕ} (hc : c.HeldBy F H T R Q i)
    (hj : j ≠ i) (hno : ¬ c.TakesNow T j) : H.Rely c.store (c.step j).store := by
  rcases c.step_cases j with h | ⟨f, k, -, h, hi⟩
  · rw [h]
    exact H.refl _
  rw [h]
  obtain ⟨h1, -, ⟨h3, -⟩ | ⟨h3, -⟩⟩ := hc.free j _ hi hj c.store (F.refl _) hc.inv
  · exact (hFH.free hc.inv h3 h1 hc.held).1
  · exact absurd ⟨f, k, hi, h3⟩ hno

/-- A commit after somebody has taken: of the holder, of another thread that takes
nothing, or of one that takes when the holder has ended. -/
theorem HeldBy.step (hFH : Handover F H N)
    (hrel : ∀ j r s, H.Inv s → R r s → ∀ t, F.Rely s t → F.Inv t → Q j r t) {c : Sys σ ε α}
    {i : ℕ} (hc : c.HeldBy F H T R Q i) (j : ℕ)
    (hturn : c.TakesNow T j → j ≠ i → ∀ p, c.threads[i]? = some p → p.Ended) :
    F.Rely c.store (c.step j).store ∧ ((c.step j).HeldBy F H T R Q i ∨
      (c.TakesNow T j ∧ (c.step j).HeldBy F H T R Q j)) := by
  rcases c.step_cases j with h | ⟨f, k, -, h, hi⟩
  · rw [h]
    exact ⟨F.refl _, .inl hc⟩
  rw [h]
  have hlt : j < c.threads.length := (List.getElem?_eq_some_iff.1 hi).1
  obtain ⟨q, hq, hok⟩ := hc.holder
  by_cases hij : j = i
  · -- the holder commits
    subst hij
    obtain rfl : Prog.act f k = q := Option.some.inj (hi.symm.trans hq)
    obtain ⟨h1, h2, h3⟩ := hok c.store (H.refl _) hc.held
    obtain ⟨h4, h5⟩ := hFH.held hc.held h1 h2
    refine ⟨h5, .inl ⟨h4, h2, ⟨_, List.getElem?_set_self hlt, h3⟩, fun l p hp hl => ?_⟩⟩
    rcases getElem?_set_cases hp with ⟨rfl, -⟩ | ⟨-, hp⟩
    · exact absurd rfl hl
    · exact (hc.free l p hp hl).later h5
  obtain ⟨h1, h2, h3⟩ := hc.free j _ hi hij c.store (F.refl _) hc.inv
  refine ⟨h2, ?_⟩
  rcases h3 with ⟨h3, h4⟩ | ⟨h3, h4, h5⟩
  · -- a thread that has taken nothing commits, and takes nothing
    obtain ⟨h5, h6⟩ := hFH.free hc.inv h3 h1 hc.held
    refine .inl ⟨h1, h6, ⟨q, ?_, hok.later h5⟩, fun l p hp hl => ?_⟩
    · rwa [List.getElem?_set_ne hij]
    · rcases getElem?_set_cases hp with ⟨rfl, rfl⟩ | ⟨-, hp⟩
      · exact h4
      · exact (hc.free l p hp hl).later h2
  · -- it takes: the holder so far has ended
    refine .inr ⟨⟨f, k, hi, h3⟩, h1, h4, ⟨_, List.getElem?_set_self hlt, h5⟩, fun l p hp hl => ?_⟩
    rcases getElem?_set_cases hp with ⟨rfl, -⟩ | ⟨-, hp⟩
    · exact absurd rfl hl
    refine Prog.Takes.later ?_ h2
    by_cases hli : l = i
    · subst hli
      obtain rfl : p = q := Option.some.inj (hp.symm.trans hq)
      exact Prog.takes_of_ended (hturn ⟨f, k, hi, h3⟩ hij p hp) hok hc.held
        fun r => hrel l r c.store hc.held
    · exact hc.free l p hp hli

theorem length_sched (c : Sys σ ε α) (is : List ℕ) :
    (c.sched is).threads.length = c.threads.length := by
  induction is generalizing c with
  | nil => rfl
  | cons i is ih =>
    rw [sched_cons, ih]
    rcases c.step_cases i with h | ⟨f, k, -, h, -⟩ <;> simp [h]

theorem sched_append (c : Sys σ ε α) (is js : List ℕ) :
    c.sched (is ++ js) = (c.sched is).sched js := by
  simp [sched]

theorem sched_concat (c : Sys σ ε α) (is : List ℕ) (i : ℕ) :
    c.sched (is ++ [i]) = (c.sched is).step i := by
  simp [sched]

/-- How a schedule went: nobody took, or thread `i` took last, and has held since. -/
structure InTurn (F H : Protocol σ) (N : σ → Prop) (T : σ → σ → Prog σ ε α → Prop)
    (R : Except ε α → σ → Prop) (Q : ℕ → Except ε α → σ → Prop) (c : Sys σ ε α) (is : List ℕ) :
    Prop where
  rely : ∀ before, before <+: is → F.Rely (c.sched before).store (c.sched is).store
  turn : (c.sched is).Untaken F H N T R Q ∨ ∃ i before after, is = before ++ i :: after ∧
    (c.sched before).TakesNow T i ∧
    ∀ pre, pre <+: after → (c.sched (before ++ i :: pre)).HeldBy F H T R Q i

theorem InTurn.inv {c : Sys σ ε α} {is : List ℕ} (h : c.InTurn F H N T R Q is) :
    F.Inv (c.sched is).store := by
  rcases h.turn with h | ⟨i, before, after, rfl, -, h⟩
  · exact h.inv
  · exact (h after List.prefix_rfl).inv

/-- **Every schedule in which nobody takes while another holder is under way.** -/
theorem sched_handover (hFH : Handover F H N)
    (hrel : ∀ j r s, H.Inv s → R r s → ∀ t, F.Rely s t → F.Inv t → Q j r t) {c : Sys σ ε α}
    (hinv : F.Inv c.store) (hnone : N c.store)
    (hfree : ∀ j (p : Prog σ ε α), c.threads[j]? = some p → p.Takes F H T R c.store (Q j))
    (is : List ℕ)
    (hturn : ∀ before i after, is = before ++ i :: after → (c.sched before).TakesNow T i →
      H.Inv (c.sched before).store → ∀ j ∈ before, j ≠ i →
      ∀ p, (c.sched before).threads[j]? = some p → p.Ended) :
    c.InTurn F H N T R Q is := by
  induction is using List.reverseRecOn with
  | nil =>
    refine ⟨fun before h => ?_, .inl ⟨hinv, hnone, hfree⟩⟩
    rw [List.prefix_nil.1 h]
    exact F.refl _
  | append_singleton is j ih =>
    have hc := ih fun before i after h => hturn before i (after ++ [j]) (by simp [h])
    -- what the last commit does decides what is known of the whole schedule
    have hrely : F.Rely (c.sched is).store (c.sched (is ++ [j])).store →
        ∀ before, before <+: is ++ [j] →
          F.Rely (c.sched before).store (c.sched (is ++ [j])).store := by
      intro hstep before hbefore
      rcases List.prefix_concat_iff.1 hbefore with rfl | hbefore
      · exact F.refl _
      · exact F.trans (hc.rely before hbefore) hstep
    have hnew : (c.sched is).TakesNow T j → (c.sched (is ++ [j])).HeldBy F H T R Q j →
        ∃ i before after, is ++ [j] = before ++ i :: after ∧ (c.sched before).TakesNow T i ∧
          ∀ pre, pre <+: after → (c.sched (before ++ i :: pre)).HeldBy F H T R Q i := by
      intro htakes hheld
      refine ⟨j, is, [], rfl, htakes, fun pre hpre => ?_⟩
      rw [List.prefix_nil.1 hpre]
      exact hheld
    rcases hc.turn with hun | ⟨i, before, after, rfl, htook, hheld⟩
    · obtain ⟨hstep, h⟩ := hun.step hFH j
      rw [← sched_concat] at hstep h
      exact ⟨hrely hstep, h.imp id fun h => hnew h.1 h.2⟩
    · have hlast := hheld after List.prefix_rfl
      obtain ⟨hstep, h⟩ := hlast.step hFH hrel j fun htakes hne p hp =>
        hturn _ j [] rfl htakes hlast.held i (by simp) (Ne.symm hne) p hp
      rw [← sched_concat] at hstep h
      refine ⟨hrely hstep, .inr ?_⟩
      rcases h with h | ⟨htakes, h⟩
      · refine ⟨i, before, after ++ [j], by simp, htook, fun pre hpre => ?_⟩
        rcases List.prefix_concat_iff.1 hpre with rfl | hpre
        · simpa using h
        · exact hheld pre hpre
      · exact hnew htakes h

end Sys

/-! ## A holder that the others wait for -/

/-- From the store `s`, the program commits the stores of the list, one after the other,
and has `q` left to do. -/
def Prog.Passes : Prog σ ε α → σ → List σ → Prog σ ε α → Prop
  | p, _, [], q => p = q
  | act f k, s, t :: ts, q => f s = t ∧ (k s).Passes t ts q
  | _, _, _ :: _, _ => False

namespace Prog

theorem passes_nil {p q : Prog σ ε α} {s : σ} : p.Passes s [] q ↔ p = q := by
  simp [Passes]

theorem Passes.attempt {p q : Prog σ ε α} {s : σ} {ts : List σ} (h : p.Passes s ts q) :
    p.attempt.Passes s ts q.attempt := by
  induction ts generalizing p s with
  | nil =>
    obtain rfl := passes_nil.1 h
    exact passes_nil.2 rfl
  | cons t ts ih =>
    cases p with
    | ret r => exact h.elim
    | stall => exact h.elim
    | act f k => exact ⟨h.1, ih h.2⟩

theorem Passes.bind {p q : Prog σ ε α} {g : α → Prog σ ε β} {s : σ} {ts : List σ}
    (h : p.Passes s ts q) : (p.bind g).Passes s ts (q.bind g) := by
  induction ts generalizing p s with
  | nil =>
    obtain rfl := passes_nil.1 h
    exact passes_nil.2 rfl
  | cons t ts ih =>
    cases p with
    | ret r => exact h.elim
    | stall => exact h.elim
    | act f k => exact ⟨h.1, ih h.2⟩

/-- A program whose first stores are known is `Ok` if these commits are allowed, the
others leave the store alone meanwhile, and the rest is `Ok`. -/
theorem Passes.ok {P : Protocol σ} {Q : Except ε α → σ → Prop} {p q : Prog σ ε α} {s : σ}
    {ts : List σ} (h : p.Passes s ts q) (hstay : ∀ t ∈ (s :: ts).dropLast, ∀ u, P.Rely t u → u = t)
    (hstep : (s :: ts).IsChain fun t u => P.Guar t u ∧ P.Inv u)
    (hq : q.Ok P ((s :: ts).getLast (by simp)) Q) : p.Ok P s Q := by
  induction ts generalizing p s with
  | nil =>
    obtain rfl := passes_nil.1 h
    exact hq
  | cons t ts ih =>
    cases p with
    | ret r => exact h.elim
    | stall => exact h.elim
    | act f k =>
      obtain ⟨rfl, h⟩ := h
      rw [List.isChain_cons_cons] at hstep
      intro u hu _
      obtain rfl := hstay s (by simp) u hu
      refine ⟨hstep.1.1, hstep.1.2, ih h (fun t ht => hstay t ?_) hstep.2 (by simpa using hq)⟩
      simp only [List.dropLast_cons_cons, List.mem_cons]
      exact .inr ht

end Prog

/-- A thread whose next stores are known, while the others leave the store alone until
the last of them: it is on its way, or it got there. -/
theorem Sys.sched_passes {V : σ → σ → Prop} {c : Sys σ ε α} {i : ℕ} {p q : Prog σ ε α}
    {l : List σ} (hp : c.threads[i]? = some p) (h : p.Passes c.store l q)
    (hstay : ∀ t ∈ (c.store :: l).dropLast, ∀ u, V t u → u = t) (is : List ℕ)
    (hothers : ∀ pre j, pre ++ [j] <+: is → j ≠ i →
      V (c.sched pre).store ((c.sched pre).step j).store) :
    (c.sched is).store ∈ (c.store :: l).dropLast ∨ ∃ pre, pre <+: is ∧
      (c.sched pre).store = (c.store :: l).getLast (by simp) ∧
      (c.sched pre).threads[i]? = some q := by
  induction is generalizing c p l with
  | nil =>
    cases l with
    | nil =>
      obtain rfl := Prog.passes_nil.1 h
      exact .inr ⟨[], List.prefix_rfl, rfl, hp⟩
    | cons t l => exact .inl (by simp)
  | cons j is ih =>
    have hothers' : ∀ pre m, pre ++ [m] <+: is → m ≠ i →
        V ((c.step j).sched pre).store (((c.step j).sched pre).step m).store :=
      fun pre m hpre hm => hothers (j :: pre) m (List.cons_prefix_cons.2 ⟨rfl, hpre⟩) hm
    cases l with
    | nil =>
      obtain rfl := Prog.passes_nil.1 h
      exact .inr ⟨[], by simp, rfl, hp⟩
    | cons t l =>
      cases p with
      | ret r => exact h.elim
      | stall => exact h.elim
      | act f k =>
        obtain ⟨rfl, h⟩ := h
        by_cases hj : j = i
        · subst hj
          have hc : c.step j = ⟨f c.store, c.threads.set j (k c.store)⟩ := by rw [Sys.step, hp]
          have hlt : j < c.threads.length := (List.getElem?_eq_some_iff.1 hp).1
          rcases ih (c := c.step j) (p := k c.store) (l := l)
            (by rw [hc]; exact List.getElem?_set_self hlt) (by rw [hc]; exact h)
            (fun u hu => hstay u (by rw [hc] at hu; simp at hu ⊢; exact .inr hu)) hothers' with
            h | ⟨pre, hpre, hst, hth⟩
          · left
            rw [hc] at h
            simp only [List.dropLast_cons_cons, List.mem_cons]
            right
            rw [Sys.sched_cons, hc]
            exact h
          · refine .inr ⟨j :: pre, List.cons_prefix_cons.2 ⟨rfl, hpre⟩, ?_, hth⟩
            rw [Sys.sched_cons, hst]
            simp [hc]
        · have hst : (c.step j).store = c.store :=
            hstay c.store (by simp) _ (hothers [] j (by simp) hj)
          rcases ih (c := c.step j) (p := .act f k) (l := f c.store :: l)
            (by rw [Sys.getElem?_step_ne c hj]; exact hp) (by rw [hst]; exact ⟨rfl, h⟩)
            (by rw [hst]; exact hstay) hothers' with h | ⟨pre, hpre, hst', hth⟩
          · left
            rw [hst] at h
            exact h
          · refine .inr ⟨j :: pre, List.cons_prefix_cons.2 ⟨rfl, hpre⟩, ?_, hth⟩
            rw [Sys.sched_cons, hst']
            simp [hst]

end Lib
