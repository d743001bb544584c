import XpressClaw.Lib.Prog

/-!
# Several programs on one store

`Sys` is a store together with the programs still running on it, and a schedule
is the list of threads in the order in which they commit.  Every interleaving at
the granularity of a transaction is some schedule.

What a thread may rely on while others run is a `Protocol`: an invariant of the
store, what the thread itself may commit (`Guar`), and how the store may change
meanwhile (`Rely`).  `Prog.Ok` says that a program keeps a protocol whatever
threads that respect its `Rely` commit in between; its rules follow the
constructors of a program, and `Prog.Ok.mono` moves a program to another protocol.

`Sys.sched_ok` turns "every thread is `Ok`" into a statement about every schedule.

`Prog.Each` is the coarser statement that every transaction a program can commit is of a
given kind; `Prog.Each.ok` makes a protocol out of what the kind guarantees.
-/

namespace Lib

variable {σ ε α β : Type}

/-- A store and the threads running on it. -/
structure Sys (σ ε α : Type) where
  store : σ
  threads : List (Prog σ ε α)

namespace Sys

/-- Let thread `i` commit its next transaction.  A thread that has ended, or that
does not exist, commits nothing. -/
def step (c : Sys σ ε α) (i : Nat) : Sys σ ε α :=
  match c.threads[i]? with
  | some (.act f k) => ⟨f c.store, c.threads.set i (k c.store)⟩
  | _ => c

/-- Run a schedule. -/
def sched (c : Sys σ ε α) (is : List Nat) : Sys σ ε α := is.foldl step c

@[simp] theorem sched_nil (c : Sys σ ε α) : c.sched [] = c := rfl

@[simp] theorem sched_cons (c : Sys σ ε α) (i : Nat) (is : List Nat) :
    c.sched (i :: is) = (c.step i).sched is := rfl

/-- What one commit can do: nothing, or run the next transaction of one thread. -/
theorem step_cases (c : Sys σ ε α) (i : Nat) :
    c.step i = c ∨ ∃ f k, Prog.act f k ∈ c.threads ∧
      c.step i = ⟨f c.store, c.threads.set i (k c.store)⟩ ∧
      c.threads[i]? = some (Prog.act f k) := by
  unfold step
  cases h : c.threads[i]? with
  | none => exact Or.inl rfl
  | some p =>
    cases p with
    | ret r => exact Or.inl rfl
    | stall => exact Or.inl rfl
    | act f k => exact Or.inr ⟨f, k, List.mem_of_getElem? h, rfl, rfl⟩

/-- A thread that never commits stays as it is. -/
theorem threads_sched_of_notMem {c : Sys σ ε α} {i : Nat} {is : List Nat} (h : i ∉ is) :
    (c.sched is).threads[i]? = c.threads[i]? := by
  induction is generalizing c with
  | nil => rfl
  | cons j is ih =>
    rw [sched_cons, ih (fun hi => h (List.mem_cons_of_mem _ hi))]
    rcases c.step_cases j with hc | ⟨f, k, -, hc, -⟩
    · rw [hc]
    · have hij : j ≠ i := by
        rintro rfl
        exact h (List.mem_cons_self ..)
      rw [hc]
      exact List.getElem?_set_ne hij

end Sys

/-- The program has no transaction left to commit. -/
def Prog.Ended : Prog σ ε α → Prop
  | .ret _ => True
  | .stall => True
  | .act _ _ => False

/-- The program has returned. -/
def Prog.returned : Prog σ ε α → Bool
  | .ret _ => true
  | .stall => false
  | .act _ _ => false

theorem Prog.eq_ret_of_returned {p : Prog σ ε α} (h : p.returned) : ∃ r, p = .ret r := by
  cases p with
  | ret r => exact ⟨r, rfl⟩
  | stall => cases h
  | act f k => cases h

/-- What threads agree on: an invariant of the store, what a thread may commit,
and how the store may change between two of its commits.  `Rely` is reflexive and
transitive, so that it also speaks of any number of commits. -/
structure Protocol (σ : Type) where
  Inv : σ → Prop
  Rely : σ → σ → Prop
  Guar : σ → σ → Prop
  refl : ∀ s, Rely s s
  trans : ∀ {s t u}, Rely s t → Rely t u → Rely s u

/-- A protocol that any number of threads can keep at once. -/
def Protocol.Shared (P : Protocol σ) : Prop := ∀ {s t}, P.Guar s t → P.Rely s t

namespace Prog

variable (P : Protocol σ)

/-- `p.Ok P s Q`: whatever respects `P.Rely` from the store `s` on, every
transaction of `p` keeps `P.Inv` and `P.Guar`, and when `p` returns, its result
satisfies `Q`. -/
def Ok : Prog σ ε α → σ → (Except ε α → σ → Prop) → Prop
  | ret r, s₀, Q => ∀ s, P.Rely s₀ s → P.Inv s → Q r s
  | stall, _, _ => True
  | act f k, s₀, Q => ∀ s, P.Rely s₀ s → P.Inv s →
      P.Guar s (f s) ∧ P.Inv (f s) ∧ (k s).Ok (f s) Q

variable {P}

/-- What other threads commit meanwhile does no harm. -/
theorem Ok.later {p : Prog σ ε α} {s t : σ} {Q : Except ε α → σ → Prop} (h : p.Ok P s Q)
    (hst : P.Rely s t) : p.Ok P t Q := by
  cases p with
  | ret r => exact fun u hu hi => h u (P.trans hst hu) hi
  | stall => trivial
  | act f k => exact fun u hu hi => h u (P.trans hst hu) hi

/-- Under a shared protocol what a thread knew at the start it still knows at the
end. -/
theorem Ok.imp {p : Prog σ ε α} {s : σ} {Q Q' : Except ε α → σ → Prop} (hP : P.Shared)
    (h : p.Ok P s Q) (hQ : ∀ r t, P.Rely s t → P.Inv t → Q r t → Q' r t) : p.Ok P s Q' := by
  induction p generalizing s with
  | ret r => exact fun u hu hi => hQ r u hu hi (h u hu hi)
  | stall => trivial
  | act f k ih =>
    intro u hu hi
    obtain ⟨h1, h2, h3⟩ := h u hu hi
    exact ⟨h1, h2, ih u h3 fun r t ht => hQ r t (P.trans hu (P.trans (hP h1) ht))⟩

theorem Ok.weaken {p : Prog σ ε α} {s : σ} {Q Q' : Except ε α → σ → Prop} (h : p.Ok P s Q)
    (hQ : ∀ r t, P.Inv t → Q r t → Q' r t) : p.Ok P s Q' := by
  induction p generalizing s with
  | ret r => exact fun u hu hi => hQ r u hi (h u hu hi)
  | stall => trivial
  | act f k ih =>
    intro u hu hi
    obtain ⟨h1, h2, h3⟩ := h u hu hi
    exact ⟨h1, h2, ih u h3⟩

/-- What both the thread and the others keep to, the whole run keeps to. -/
theorem Ok.along {V : σ → σ → Prop} {p : Prog σ ε α} {s : σ} {Q : Except ε α → σ → Prop}
    (h : p.Ok P s Q) (htrans : ∀ {s t u}, V s t → V t u → V s u)
    (hrely : ∀ {s t}, P.Rely s t → V s t) (hguar : ∀ {s t}, P.Guar s t → V s t) :
    p.Ok P s fun r t => Q r t ∧ V s t := by
  induction p generalizing s with
  | ret r => exact fun t ht hi => ⟨h t ht hi, hrely ht⟩
  | stall => trivial
  | act f k ih =>
    intro t ht hi
    obtain ⟨h1, h2, h3⟩ := h t ht hi
    refine ⟨h1, h2, (ih t h3).weaken fun r u _ hq => ⟨hq.1, ?_⟩⟩
    exact htrans (htrans (hrely ht) (hguar h1)) hq.2

/-- Moving a program to another protocol, under an assertion `A` that both keep: the
new one promises more about the other threads, and what the program commits is
allowed by the new one too. -/
theorem Ok.mono {P' : Protocol σ} {A : σ → Prop} {p : Prog σ ε α} {s : σ}
    {Q : Except ε α → σ → Prop} (h : p.Ok P s Q) (hA : A s)
    (hrely : ∀ {s t}, A s → P'.Rely s t → P'.Inv t → P.Rely s t ∧ A t)
    (hinv : ∀ {s}, A s → P'.Inv s → P.Inv s)
    (hguar : ∀ {s t}, A s → P'.Inv s → P.Guar s t → P.Inv t → P'.Guar s t ∧ P'.Inv t ∧ A t) :
    p.Ok P' s fun r t => Q r t ∧ A t := by
  induction p generalizing s with
  | ret r =>
    intro t ht hi
    obtain ⟨h1, h2⟩ := hrely hA ht hi
    exact ⟨h t h1 (hinv h2 hi), h2⟩
  | stall => trivial
  | act f k ih =>
    intro t ht hi
    obtain ⟨h1, h2⟩ := hrely hA ht hi
    obtain ⟨h3, h4, h5⟩ := h t h1 (hinv h2 hi)
    obtain ⟨h6, h7, h8⟩ := hguar h2 hi h3 h4
    exact ⟨h6, h7, ih t h5 h8⟩

theorem ok_fail {e : ε} {s : σ} {Q : Except ε α → σ → Prop}
    (h : ∀ t, P.Rely s t → P.Inv t → Q (.error e) t) : (fail e : Prog σ ε α).Ok P s Q := h

theorem ok_pure {a : α} {s : σ} {Q : Except ε α → σ → Prop}
    (h : ∀ t, P.Rely s t → P.Inv t → Q (.ok a) t) : (ret (.ok a) : Prog σ ε α).Ok P s Q := h

theorem ok_read {q : σ → α} {s : σ} {Q : Except ε α → σ → Prop} (hrefl : ∀ t, P.Guar t t)
    (h : ∀ t, P.Rely s t → P.Inv t → ∀ u, P.Rely t u → P.Inv u → Q (.ok (q t)) u) :
    (read q : Prog σ ε α).Ok P s Q :=
  fun t ht hi => ⟨hrefl t, hi, h t ht hi⟩

theorem ok_write {u : σ → σ} {s : σ} {Q : Except ε Unit → σ → Prop}
    (h : ∀ t, P.Rely s t → P.Inv t → P.Guar t (u t) ∧ P.Inv (u t) ∧
      ∀ v, P.Rely (u t) v → P.Inv v → Q (.ok ()) v) :
    (write u : Prog σ ε Unit).Ok P s Q := h

/-- A transaction either commits or leaves the store alone. -/
theorem ok_tx {t : σ → Except ε (α × σ)} {s : σ} {Q : Except ε α → σ → Prop}
    (hrefl : ∀ t, P.Guar t t)
    (hok : ∀ v, P.Rely s v → P.Inv v → ∀ a w, t v = .ok (a, w) →
      P.Guar v w ∧ P.Inv w ∧ ∀ x, P.Rely w x → P.Inv x → Q (.ok a) x)
    (herr : ∀ v, P.Rely s v → P.Inv v → ∀ e, t v = .error e →
      ∀ x, P.Rely v x → P.Inv x → Q (.error e) x) :
    (tx t).Ok P s Q := by
  intro v hv hi
  cases h : t v with
  | ok r =>
    obtain ⟨a, w⟩ := r
    obtain ⟨h1, h2, h3⟩ := hok v hv hi a w h
    simp only [h, Except.map]
    exact ⟨h1, h2, h3⟩
  | error e =>
    simp only [h, Except.map]
    exact ⟨hrefl v, hi, herr v hv hi e h⟩

theorem ok_bind {p : Prog σ ε α} {g : α → Prog σ ε β} {s : σ} {Q : Except ε β → σ → Prop}
    (hs : P.Inv s)
    (hp : p.Ok P s fun r t => match r with
      | .ok a => (g a).Ok P t Q
      | .error e => Q (.error e) t) :
    (p.bind g).Ok P s Q := by
  induction p generalizing s with
  | ret r =>
    cases r with
    | ok a => exact hp s (P.refl s) hs
    | error e => exact hp
  | stall => trivial
  | act f k ih =>
    intro t ht hi
    obtain ⟨h1, h2, h3⟩ := hp t ht hi
    exact ⟨h1, h2, ih t h2 h3⟩

theorem ok_attempt {p : Prog σ ε α} {s : σ} {Q : Except ε (Except ε α) → σ → Prop}
    (hp : p.Ok P s fun r t => Q (.ok r) t) : p.attempt.Ok P s Q := by
  induction p generalizing s with
  | ret r => exact hp
  | stall => trivial
  | act f k ih =>
    intro t ht hi
    obtain ⟨h1, h2, h3⟩ := hp t ht hi
    exact ⟨h1, h2, ih t h3⟩

end Prog

namespace Sys

variable {P : Protocol σ} {Q : Except ε α → σ → Prop}

/-- One commit of a system of `Ok` threads keeps the protocol, and the threads
stay `Ok`. -/
theorem step_ok {c : Sys σ ε α} (hP : P.Shared) (hi : P.Inv c.store)
    (hok : ∀ p ∈ c.threads, p.Ok P c.store Q)
    (i : Nat) :
    P.Rely c.store (c.step i).store ∧ P.Inv (c.step i).store ∧
      ∀ p ∈ (c.step i).threads, p.Ok P (c.step i).store Q := by
  rcases c.step_cases i with h | ⟨f, k, hmem, h, -⟩
  · rw [h]
    exact ⟨P.refl _, hi, hok⟩
  · obtain ⟨h1, h2, h3⟩ := hok _ hmem c.store (P.refl _) hi
    rw [h]
    refine ⟨hP h1, h2, fun p hp => ?_⟩
    rcases List.mem_or_eq_of_mem_set hp with hp | rfl
    · exact (hok p hp).later (hP h1)
    · exact h3

/-- One commit of a system of `Ok` threads is one that its thread may make. -/
theorem step_guar {c : Sys σ ε α} (hi : P.Inv c.store) (hok : ∀ p ∈ c.threads, p.Ok P c.store Q)
    (i : Nat) : c.step i = c ∨ P.Guar c.store (c.step i).store := by
  rcases c.step_cases i with h | ⟨f, k, hmem, h, -⟩
  · exact .inl h
  · rw [h]
    exact .inr (hok _ hmem c.store (P.refl _) hi).1

/-- **Every schedule keeps the protocol.** -/
theorem sched_ok {c : Sys σ ε α} (hP : P.Shared) (hi : P.Inv c.store)
    (hok : ∀ p ∈ c.threads, p.Ok P c.store Q)
    (is : List Nat) :
    P.Rely c.store (c.sched is).store ∧ P.Inv (c.sched is).store ∧
      ∀ p ∈ (c.sched is).threads, p.Ok P (c.sched is).store Q := by
  induction is generalizing c with
  | nil => exact ⟨P.refl _, hi, hok⟩
  | cons i is ih =>
    obtain ⟨h1, h2, h3⟩ := step_ok hP hi hok i
    obtain ⟨h4, h5, h6⟩ := ih h2 h3
    exact ⟨P.trans h1 h4, h5, h6⟩

end Sys

/-! ## The transactions of a program -/

namespace Prog

/-- Every transaction of the program, whatever it reads, is of the kind `T`. -/
def Each (T : (σ → σ) → Prop) : Prog σ ε α → Prop
  | ret _ => True
  | stall => True
  | act f k => T f ∧ ∀ s, (k s).Each T

/-- The next transaction, if there is one. -/
def next? : Prog σ ε α → Option (σ → σ)
  | ret _ => none
  | stall => none
  | act f _ => some f

/-- A transaction alone: what it commits is what it leaves. -/
theorem final_of_next? {t : σ → Except ε (α × σ)} {f : σ → σ} (h : (tx t).next? = some f) (s : σ) :
    f s = (tx t).final s := by
  cases h
  rfl

/-- What a transaction leaves: the store it found, or the one it made. -/
theorem final_tx_cases {I : σ → Prop} {t : σ → Except ε (α × σ)} {s : σ} (herr : I s)
    (hok : ∀ a s', t s = .ok (a, s') → I s') : I ((tx t).final s) := by
  rcases run_tx_cases t s with ⟨e, -, hr⟩ | ⟨a, s', ht, hr⟩
  · rw [final, hr]
    exact herr
  · rw [final, hr]
    exact hok a s' ht

variable {T : (σ → σ) → Prop}

theorem Each.mono {T' : (σ → σ) → Prop} {p : Prog σ ε α} (h : p.Each T) (hT : ∀ f, T f → T' f) :
    p.Each T' := by
  induction p with
  | ret r => trivial
  | stall => trivial
  | act f k ih => exact ⟨hT f h.1, fun s => ih s (h.2 s)⟩

theorem each_ret {r : Except ε α} : (ret r : Prog σ ε α).Each T := trivial

theorem each_stall : (stall : Prog σ ε α).Each T := trivial

theorem each_act {f : σ → σ} {k : σ → Prog σ ε α} :
    (act f k).Each T ↔ T f ∧ ∀ s, (k s).Each T := Iff.rfl

theorem each_fail {e : ε} : (fail e : Prog σ ε α).Each T := trivial

theorem each_orFail {e : ε} {o : Option α} : (orFail e o : Prog σ ε α).Each T := by
  cases o <;> trivial

theorem each_read {q : σ → α} (hid : T id) : (read q : Prog σ ε α).Each T :=
  ⟨hid, fun _ => trivial⟩

theorem each_write {u : σ → σ} (h : T u) : (write u : Prog σ ε Unit).Each T :=
  ⟨h, fun _ => trivial⟩

/-- A transaction that is of a kind whenever it succeeds. -/
theorem each_tx {R : σ → σ → Prop} {t : σ → Except ε (α × σ)} (hrefl : ∀ s, R s s)
    (h : ∀ s a s', t s = .ok (a, s') → R s s') : (tx t).Each fun f => ∀ s, R s (f s) := by
  refine ⟨fun s => ?_, fun _ => trivial⟩
  dsimp only
  cases ht : t s with
  | ok r => exact h s r.1 r.2 ht
  | error e => exact hrefl s

theorem Each.bind {p : Prog σ ε α} {g : α → Prog σ ε β} (hp : p.Each T)
    (hg : ∀ a, (g a).Each T) : (p.bind g).Each T := by
  induction p with
  | ret r =>
    cases r with
    | ok a => exact hg a
    | error e => trivial
  | stall => trivial
  | act f k ih => exact ⟨hp.1, fun s => ih s (hp.2 s)⟩

theorem Each.attempt {p : Prog σ ε α} (hp : p.Each T) : p.attempt.Each T := by
  induction p with
  | ret r => trivial
  | stall => trivial
  | act f k ih => exact ⟨hp.1, fun s => ih s (hp.2 s)⟩

theorem each_forEach {g : α → Prog σ ε Unit} {l : List α} (h : ∀ a ∈ l, (g a).Each T) :
    (forEach l g).Each T := by
  induction l with
  | nil => trivial
  | cons a l ih =>
    exact (h a (List.mem_cons_self ..)).bind fun _ =>
      ih fun b hb => h b (List.mem_cons_of_mem _ hb)

theorem each_collect {g : α → Prog σ ε β} {l : List α} (h : ∀ a ∈ l, (g a).Each T) :
    (collect l g).Each T := by
  induction l with
  | nil => trivial
  | cons a l ih =>
    refine (h a (List.mem_cons_self ..)).bind fun _ => ?_
    exact (ih fun b hb => h b (List.mem_cons_of_mem _ hb)).bind fun _ => trivial

/-- A program keeps a protocol when each of its transactions does, from the store it
starts on. -/
theorem Each.ok {P : Protocol σ} {p : Prog σ ε α} {s : σ} (h : p.Each T) (hP : P.Shared)
    (hT : ∀ f, T f → ∀ t, P.Rely s t → P.Inv t → P.Guar t (f t) ∧ P.Inv (f t)) :
    p.Ok P s fun _ _ => True := by
  induction p generalizing s with
  | ret r => exact fun _ _ _ => trivial
  | stall => trivial
  | act f k ih =>
    intro t ht hi
    obtain ⟨h1, h2⟩ := hT f h.1 t ht hi
    refine ⟨h1, h2, ih t (h.2 t) fun g hg u hu hiu => ?_⟩
    exact hT g hg u (P.trans ht (P.trans (hP h1) hu)) hiu

end Prog

namespace Sys

variable {T : (σ → σ) → Prop}

/-- One commit runs a transaction of the kind its thread promises. -/
theorem step_each {c : Sys σ ε α} (h : ∀ p ∈ c.threads, p.Each T) (i : Nat) :
    (c.step i = c ∨ ∃ f p, c.threads[i]? = some p ∧ p.next? = some f ∧ T f ∧
      (c.step i).store = f c.store) ∧
    ∀ p ∈ (c.step i).threads, p.Each T := by
  rcases c.step_cases i with hc | ⟨f, k, hmem, hc, hi⟩
  · rw [hc]
    exact ⟨.inl rfl, h⟩
  · have hf := h _ hmem
    rw [hc]
    refine ⟨.inr ⟨f, _, hi, rfl, hf.1, rfl⟩, fun p hp => ?_⟩
    rcases List.mem_or_eq_of_mem_set hp with hp | rfl
    · exact h p hp
    · exact hf.2 _

/-- What every transaction of the kind keeps, a whole schedule keeps. -/
theorem sched_each {I : σ → Prop} {c : Sys σ ε α} (h : ∀ p ∈ c.threads, p.Each T)
    (hT : ∀ f, T f → ∀ s, I s → I (f s)) (hi : I c.store) (is : List Nat) :
    I (c.sched is).store ∧ ∀ p ∈ (c.sched is).threads, p.Each T := by
  induction is generalizing c with
  | nil => exact ⟨hi, h⟩
  | cons i is ih =>
    obtain ⟨h1, h2⟩ := step_each h i
    refine ih h2 ?_
    rcases h1 with h1 | ⟨f, -, -, -, hf, h1⟩
    · rw [h1]
      exact hi
    · rw [h1]
      exact hT f hf _ hi

end Sys

attribute [irreducible] Prog.Each

end Lib
