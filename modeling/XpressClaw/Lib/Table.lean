import Mathlib.Data.Int.Notation
import Mathlib.Data.List.Basic
import Mathlib.Data.List.Perm.Subperm

/-!
# Tables with a key

A table is the list of its rows in insertion order, and `key` reads the key off a
row.  Rows are added at the end and changed in place, which is all the modelled
transactions do; none of the lemmas below needs keys to be distinct, because the
first row with a key is the one that every operation speaks about.
-/

namespace Lib.Table

variable {ρ ι : Type} [DecidableEq ι] (key : ρ → ι)

/-- The row with the given key. -/
def get (rows : List ρ) (k : ι) : Option ρ := rows.find? fun r => key r = k

/-- Change the row with the given key. -/
def modify (k : ι) (g : ρ → ρ) (rows : List ρ) : List ρ :=
  rows.map fun r => if key r = k then g r else r

/-- The first of the rows with the least rank: `ORDER BY rank LIMIT 1`. -/
def least (rank : ρ → ℤ) : List ρ → Option ρ
  | [] => none
  | r :: rows =>
      match least rank rows with
      | none => some r
      | some r' => if rank r ≤ rank r' then some r else some r'

/-- The last of the rows with the greatest rank: `ORDER BY rank DESC, rowid DESC LIMIT 1`. -/
def latest (rank : ρ → ℤ) : List ρ → Option ρ
  | [] => none
  | r :: rows =>
      match latest rank rows with
      | none => some r
      | some r' => if rank r' < rank r then some r else some r'

variable {key}

/-- A change of the rows that keeps their rank keeps which row is the latest. -/
theorem latest_map {τ : Type} {rank : ρ → ℤ} {rank' : τ → ℤ} {g : ρ → τ}
    (hg : ∀ r, rank' (g r) = rank r) (rows : List ρ) :
    latest rank' (rows.map g) = (latest rank rows).map g := by
  induction rows with
  | nil => rfl
  | cons r rows ih =>
    rw [List.map_cons, latest, latest, ih]
    cases latest rank rows with
    | none => rfl
    | some r' =>
      rw [Option.map_some]
      dsimp only
      rw [hg, hg]
      split <;> rfl

theorem mem_of_latest {rank : ρ → ℤ} {rows : List ρ} {r : ρ} (h : latest rank rows = some r) :
    r ∈ rows := by
  induction rows with
  | nil => cases h
  | cons r₀ rows ih =>
    rw [latest] at h
    cases hl : latest rank rows with
    | none =>
      rw [hl] at h
      cases h
      exact List.mem_cons_self
    | some r' =>
      rw [hl] at h
      dsimp only at h
      split at h
      · cases h
        exact List.mem_cons_self
      · exact List.mem_cons_of_mem _ (ih (hl.trans h))

theorem least_eq_none {rank : ρ → ℤ} {rows : List ρ} (h : least rank rows = none) : rows = [] := by
  cases rows with
  | nil => rfl
  | cons r rows =>
    rw [least] at h
    split at h
    · cases h
    · split at h <;> cases h

theorem mem_of_least {rank : ρ → ℤ} {rows : List ρ} {r : ρ} (h : least rank rows = some r) :
    r ∈ rows := by
  induction rows generalizing r with
  | nil => cases h
  | cons r₀ rows ih =>
    rw [least] at h
    split at h
    · exact Option.some.inj h ▸ List.mem_cons_self
    · rename_i r' hr'
      split at h
      · exact Option.some.inj h ▸ List.mem_cons_self
      · exact Option.some.inj h ▸ List.mem_cons_of_mem _ (ih hr')

/-- Taking out the least row, and whatever has its key, makes room. -/
theorem length_evict_lt (key : ρ → ι) {rank : ρ → ℤ} {rows : List ρ} {r : ρ}
    (h : least rank rows = some r) :
    (rows.filter (key · ≠ key r)).length < rows.length :=
  List.length_filter_lt_length_iff_exists.2 ⟨r, mem_of_least h, by simp⟩

theorem mem_of_get {rows : List ρ} {k : ι} {r : ρ} (h : get key rows k = some r) : r ∈ rows :=
  List.mem_of_find?_eq_some h

theorem key_of_get {rows : List ρ} {k : ι} {r : ρ} (h : get key rows k = some r) : key r = k := by
  simpa using List.find?_some h

theorem get_append {rows more : List ρ} {k : ι} :
    get key (rows ++ more) k = (get key rows k).or (get key more k) := by
  simp [get, List.find?_append]

theorem get_singleton {r : ρ} {k : ι} : get key [r] k = if key r = k then some r else none := by
  by_cases hk : key r = k <;> simp [get, hk]

theorem get_append_of_some {rows more : List ρ} {k : ι} {r : ρ} (h : get key rows k = some r) :
    get key (rows ++ more) k = some r := by
  rw [get_append, h]
  rfl

theorem get_map {rows : List ρ} {k : ι} {g : ρ → ρ} (hg : ∀ r, key (g r) = key r) :
    get key (rows.map g) k = (get key rows k).map g := by
  induction rows with
  | nil => rfl
  | cons r rows ih =>
    simp only [get, List.map_cons, List.find?_cons, hg] at ih ⊢
    by_cases hk : key r = k <;> simp [hk, ih]

/-- Reading a table after a change: the change shows in the row it names and in no
other. -/
theorem get_modify {rows : List ρ} {k k' : ι} {g : ρ → ρ} (hg : ∀ r, key (g r) = key r) :
    get key (modify key k g rows) k' =
      (get key rows k').map fun r => if k' = k then g r else r := by
  induction rows with
  | nil => rfl
  | cons r rows ih =>
    simp only [get, modify, List.map_cons, List.find?_cons] at ih ⊢
    by_cases hr : key r = k
    · by_cases hk : key r = k'
      · simp [hr, hg, show k = k' from hr.symm.trans hk]
      · have hk' : k ≠ k' := fun h => hk (hr.trans h)
        simp [hr, hg, hk', ih]
    · by_cases hk : key r = k'
      · have hk' : k' ≠ k := fun h => hr (hk.trans h)
        simp [hk, hk']
      · simp [hr, hk, ih]

theorem mem_modify {rows : List ρ} {k : ι} {g : ρ → ρ} {r : ρ} (h : r ∈ modify key k g rows) :
    (r ∈ rows ∧ key r ≠ k) ∨ ∃ r₀ ∈ rows, key r₀ = k ∧ r = g r₀ := by
  obtain ⟨r₀, hr₀, rfl⟩ := List.mem_map.1 h
  by_cases hk : key r₀ = k
  · exact Or.inr ⟨r₀, hr₀, hk, by simp [hk]⟩
  · exact Or.inl ⟨by simpa [hk] using hr₀, by simp [hk]⟩

@[simp] theorem map_key_modify {rows : List ρ} {k : ι} {g : ρ → ρ} (hg : ∀ r, key (g r) = key r) :
    (modify key k g rows).map key = rows.map key := by
  simp only [modify, List.map_map]
  refine List.map_congr_left fun r _ => ?_
  by_cases h : key r = k <;> simp [h, hg]

theorem get_isSome_iff {rows : List ρ} {k : ι} :
    (get key rows k).isSome ↔ k ∈ rows.map key := by
  simp [get, List.find?_isSome]

/-- With distinct keys, a row is what its key is looked up as. -/
theorem get_eq_some_of_mem {rows : List ρ} {r : ρ} (hnd : (rows.map key).Nodup) (h : r ∈ rows) :
    get key rows (key r) = some r := by
  induction rows with
  | nil => cases h
  | cons a rows ih =>
    rw [List.map_cons, List.nodup_cons] at hnd
    rcases List.mem_cons.1 h with rfl | h
    · simp [get]
    · have hne : key a ≠ key r := fun he => hnd.1 (he ▸ List.mem_map_of_mem h)
      simpa [get, hne] using ih hnd.2 h

/-- With distinct keys, a row is the only one with its key. -/
theorem filter_key_eq {rows : List ρ} {k : ι} {r : ρ} (hnd : (rows.map key).Nodup)
    (h : get key rows k = some r) : rows.filter (fun r => key r = k) = [r] := by
  induction rows with
  | nil => cases h
  | cons a rows ih =>
    rw [List.map_cons, List.nodup_cons] at hnd
    rw [get, List.find?_cons] at h
    by_cases ha : key a = k
    · have hrest : ∀ x ∈ rows, key x ≠ k := fun x hx he =>
        hnd.1 (ha.trans he.symm ▸ List.mem_map_of_mem hx)
      simp only [ha, decide_true, Option.some.injEq] at h
      rw [List.filter_cons_of_pos (by simpa using ha), h, List.filter_eq_nil_iff.2]
      simpa using hrest
    · simp only [ha, decide_false] at h
      rw [List.filter_cons_of_neg (by simpa using ha)]
      exact ih hnd.2 h

/-! ## Tables over time -/

/-- `Evolves R N s t`: the table `t` has the rows of `s`, each changed as `R` allows,
followed by new rows that satisfy `N`. -/
def Evolves (R : ρ → ρ → Prop) (N : ρ → Prop) (s t : List ρ) : Prop :=
  ∃ g : ρ → ρ, ∃ new, t = s.map g ++ new ∧ (∀ r ∈ s, R r (g r)) ∧ ∀ r ∈ new, N r

namespace Evolves

variable {R : ρ → ρ → Prop} {N : ρ → Prop} {s t u : List ρ}

theorem refl (hR : ∀ r, R r r) (s : List ρ) : Evolves R N s s :=
  ⟨id, [], by simp, fun r _ => hR r, by simp⟩

theorem mono {Q : ρ → ρ → Prop} {M : ρ → Prop} (h : Evolves R N s t)
    (hR : ∀ r r', R r r' → Q r r') (hN : ∀ r, N r → M r) : Evolves Q M s t := by
  obtain ⟨g, new, rfl, hg, hnew⟩ := h
  exact ⟨g, new, rfl, fun r hr => hR _ _ (hg r hr), fun r hr => hN r (hnew r hr)⟩

theorem trans (h : Evolves R N s t) (h' : Evolves R N t u)
    (hR : ∀ {a b c}, R a b → R b c → R a c) (hN : ∀ {a b}, N a → R a b → N b) :
    Evolves R N s u := by
  obtain ⟨g, new, rfl, hg, hnew⟩ := h
  obtain ⟨g', new', rfl, hg', hnew'⟩ := h'
  refine ⟨g' ∘ g, new.map g' ++ new', by simp, ?_, ?_⟩
  · intro r hr
    exact hR (hg r hr) (hg' _ (List.mem_append_left _ (List.mem_map_of_mem hr)))
  · intro r hr
    rcases List.mem_append.1 hr with hr | hr
    · obtain ⟨r₀, hr₀, rfl⟩ := List.mem_map.1 hr
      exact hN (hnew r₀ hr₀) (hg' _ (List.mem_append_right _ hr₀))
    · exact hnew' r hr

theorem modify {k : ι} {g : ρ → ρ} (hR : ∀ r, R r r) (hg : ∀ r ∈ s, key r = k → R r (g r)) :
    Evolves R N s (modify key k g s) := by
  refine ⟨fun r => if key r = k then g r else r, [], by simp [Table.modify], ?_, by simp⟩
  intro r hr
  by_cases h : key r = k
  · simpa [h] using hg r hr h
  · simpa [h] using hR r

theorem append {more : List ρ} (hR : ∀ r, R r r) (hN : ∀ r ∈ more, N r) :
    Evolves R N s (s ++ more) :=
  ⟨id, more, by simp, fun r _ => hR r, hN⟩

/-- A row of the later table is an earlier row, changed, or new. -/
theorem mem_cases (h : Evolves R N s t) {r : ρ} (hr : r ∈ t) : (∃ r₀ ∈ s, R r₀ r) ∨ N r := by
  obtain ⟨g, new, rfl, hg, hnew⟩ := h
  rcases List.mem_append.1 hr with hr | hr
  · obtain ⟨r₀, hr₀, rfl⟩ := List.mem_map.1 hr
    exact Or.inl ⟨r₀, hr₀, hg r₀ hr₀⟩
  · exact Or.inr (hnew r hr)

/-- Looking a row up later finds the row it has become. -/
theorem get_of_get (h : Evolves R N s t) (hkey : ∀ {a b}, R a b → key b = key a) {k : ι} {r : ρ}
    (hr : get key s k = some r) : ∃ r', get key t k = some r' ∧ R r r' := by
  obtain ⟨g, new, rfl, hg, -⟩ := h
  refine ⟨g r, get_append_of_some ?_, hg r (mem_of_get hr)⟩
  have hget : ∀ l : List ρ, (∀ a ∈ l, key (g a) = key a) → get key l k = some r →
      get key (l.map g) k = some (g r) := by
    intro l hl hlr
    induction l with
    | nil => cases hlr
    | cons a l ih =>
      have ha := hl a (List.mem_cons_self ..)
      rw [get, List.find?_cons] at hlr
      rw [get, List.map_cons, List.find?_cons, ha]
      by_cases hk : key a = k
      · simp only [hk, decide_true, Option.some.injEq] at hlr ⊢
        rw [hlr]
      · simp only [hk, decide_false] at hlr ⊢
        exact ih (fun b hb => hl b (List.mem_cons_of_mem _ hb)) hlr
  exact hget s (fun a ha => hkey (hg a ha)) hr

end Evolves

end Lib.Table
