import Mathlib.Data.List.Sort
import XpressClaw.Lib.Upsert

/-!
# One file for each record

Records are kept in a directory, each in a file that its key names.  The order in which a
directory is listed says nothing about the order in which the records were written, so a list of
records is brought into one order before it is written and again after it is read.

* `sortBy` — the records in the order of their keys; `sortBy_eq_of_perm` — with distinct keys
  there is one such order.
* `Dir.put`, `Dir.putAll` — writing files; `Dir.putAll_nil` — what a directory holds that was
  empty before.
* `readEach` — reading the files; `readEach_of_forall` — when each is read back as what was
  written.
-/

namespace Lib

variable {α β κ ε : Type}

/-! ## One order -/

section Order

variable [LinearOrder κ] {key : α → κ} {xs ys : List α}

/-- The stable sort by a key. -/
def sortBy (key : α → κ) (xs : List α) : List α := xs.insertionSort fun x y => key x ≤ key y

theorem sortBy_perm (key : α → κ) (xs : List α) : (sortBy key xs).Perm xs :=
  List.perm_insertionSort _ _

@[simp] theorem mem_sortBy {x : α} : x ∈ sortBy key xs ↔ x ∈ xs := (sortBy_perm key xs).mem_iff

@[simp] theorem length_sortBy : (sortBy key xs).length = xs.length := (sortBy_perm key xs).length_eq

theorem sortBy_sorted (key : α → κ) (xs : List α) :
    (sortBy key xs).Pairwise fun x y => key x ≤ key y :=
  List.pairwise_insertionSort _ _

/-- Records with distinct keys have one order. -/
theorem sortBy_eq_of_perm (hkeys : (xs.map key).Nodup) (hperm : xs.Perm ys) :
    sortBy key xs = sortBy key ys := by
  refine List.Perm.eq_of_pairwise ?_ (sortBy_sorted key xs) (sortBy_sorted key ys)
    ((sortBy_perm key xs).trans (hperm.trans (sortBy_perm key ys).symm))
  intro x y hx hy hxy hyx
  have hmem : y ∈ xs := hperm.mem_iff.2 (mem_sortBy.1 hy)
  exact List.inj_on_of_nodup_map hkeys (mem_sortBy.1 hx) hmem (le_antisymm hxy hyx)

theorem sortBy_of_sorted (h : xs.Pairwise fun x y => key x ≤ key y) : sortBy key xs = xs :=
  List.Pairwise.insertionSort_eq h

theorem sortBy_sortBy (key : α → κ) (xs : List α) : sortBy key (sortBy key xs) = sortBy key xs :=
  sortBy_of_sorted (sortBy_sorted key xs)

theorem map_sortBy {f : β → α} (key : α → κ) (xs : List β) :
    (sortBy (fun x => key (f x)) xs).map f = sortBy key (xs.map f) := by
  unfold sortBy
  exact List.map_insertionSort _ _ _ _ fun _ _ _ _ => Iff.rfl

end Order

/-! ## Directories -/

/-- The entries of a directory, by their names. -/
abbrev Dir (α : Type) : Type := List (String × α)

namespace Dir

variable {d : Dir α} {name name' : String} {x : α}

/-- What has a name in a directory. -/
def get (d : Dir α) (name : String) : Option α := (Table.get Prod.fst d name).map Prod.snd

/-- Create a file, or write over the one that has the name. -/
def put (name : String) (x : α) (d : Dir α) : Dir α :=
  Table.upsert Prod.fst name (name, x) (fun _ => (name, x)) d

/-- Write several files, one after another. -/
def putAll (files : List (String × α)) (d : Dir α) : Dir α :=
  files.foldl (fun d file => put file.1 file.2 d) d

theorem get_eq_some_iff (hnames : (d.map Prod.fst).Nodup) : get d name = some x ↔ (name, x) ∈ d := by
  constructor
  · intro h
    obtain ⟨r, hr, rfl⟩ := Option.map_eq_some_iff.1 h
    have hkey : r.1 = name := Table.key_of_get hr
    exact hkey ▸ Table.mem_of_get hr
  · intro h
    exact Option.map_eq_some_iff.2 ⟨_, Table.get_eq_some_of_mem hnames h, rfl⟩

theorem get_eq_none_iff : get d name = none ↔ ∀ x, (name, x) ∉ d := by
  rw [get, Option.map_eq_none_iff, ← Option.not_isSome_iff_eq_none, Table.get_isSome_iff]
  simp

theorem put_of_notMem (h : name ∉ d.map Prod.fst) : put name x d = d ++ [(name, x)] := by
  have hnone : ¬ (Table.get Prod.fst d name).isSome := fun hsome => h (Table.get_isSome_iff.1 hsome)
  rw [put, Table.upsert, if_neg hnone]

theorem get_put_self : get (put name x d) name = some x := by
  unfold get put Table.upsert
  by_cases h : (Table.get Prod.fst d name).isSome
  · obtain ⟨r, hr⟩ := Option.isSome_iff_exists.1 h
    rw [if_pos h]
    have hmem : name ∈ (Table.modify Prod.fst name (fun _ => (name, x)) d).map Prod.fst := by
      refine List.mem_map.2 ⟨(name, x), ?_, rfl⟩
      exact List.mem_map.2 ⟨r, Table.mem_of_get hr, by simp [Table.key_of_get hr]⟩
    obtain ⟨r', hr'⟩ := Option.isSome_iff_exists.1 (Table.get_isSome_iff.2 hmem)
    rw [hr']
    rcases Table.mem_modify (Table.mem_of_get hr') with ⟨-, hne⟩ | ⟨r₀, -, -, rfl⟩
    · exact absurd (Table.key_of_get hr') hne
    · rfl
  · rw [if_neg h, Table.get_append, Option.not_isSome_iff_eq_none.1 h]
    simp [Table.get_singleton]

theorem mem_put {e : String × α} (h : e ∈ put name x d) :
    e = (name, x) ∨ (e ∈ d ∧ e.1 ≠ name) := by
  unfold put Table.upsert at h
  split at h
  · rcases Table.mem_modify h with ⟨hmem, hne⟩ | ⟨r₀, -, -, rfl⟩
    · exact Or.inr ⟨hmem, hne⟩
    · exact Or.inl rfl
  · rename_i hnone
    rcases List.mem_append.1 h with h | h
    · refine Or.inr ⟨h, fun he => hnone (Table.get_isSome_iff.2 ?_)⟩
      exact he ▸ List.mem_map_of_mem h
    · exact Or.inl (List.mem_singleton.1 h)

theorem get_put_of_ne (hne : name' ≠ name) : get (put name x d) name' = get d name' := by
  have hdrop : ∀ rows : Dir α, Table.get Prod.fst
      (Table.modify Prod.fst name (fun _ => (name, x)) rows) name' =
        Table.get Prod.fst rows name' := by
    intro rows
    induction rows with
    | nil => rfl
    | cons r rows ih =>
      rw [Table.get, Table.modify, List.map_cons, List.find?_cons, ← Table.modify, ← Table.get,
        ih, Table.get, Table.get, List.find?_cons]
      by_cases hr : r.1 = name
      · simp [hr, hne.symm]
      · simp [hr]
  unfold get put Table.upsert
  split
  · rw [hdrop]
  · rw [Table.get_append, Table.get_singleton, if_neg hne.symm, Option.or_none]

/-- Files with distinct names that a directory does not have are added to it. -/
theorem putAll_of_disjoint {files : List (String × α)} (hnames : (files.map Prod.fst).Nodup)
    (hnew : ∀ name ∈ files.map Prod.fst, name ∉ d.map Prod.fst) : putAll files d = d ++ files := by
  induction files generalizing d with
  | nil => simp [putAll]
  | cons file files ih =>
    obtain ⟨hfile, hrest⟩ := List.nodup_cons.1 hnames
    have hput : put file.1 file.2 d = d ++ [file] :=
      put_of_notMem (hnew _ List.mem_cons_self)
    have hlater : putAll files (d ++ [file]) = (d ++ [file]) ++ files := by
      refine ih hrest fun name hname hmem => ?_
      rw [List.map_append, List.mem_append] at hmem
      rcases hmem with hmem | hmem
      · exact hnew name (List.mem_cons_of_mem _ hname) hmem
      · rw [List.map_singleton, List.mem_singleton] at hmem
        exact hfile (hmem ▸ hname)
    calc putAll (file :: files) d = putAll files (put file.1 file.2 d) := rfl
      _ = (d ++ [file]) ++ files := by rw [hput, hlater]
      _ = d ++ file :: files := by simp

/-- A directory that was empty holds the files that were written to it. -/
theorem putAll_nil {files : List (String × α)} (hnames : (files.map Prod.fst).Nodup) :
    putAll files [] = files :=
  putAll_of_disjoint hnames fun _ _ h => List.not_mem_nil h

end Dir

/-! ## Reading every file -/

/-- Read each of several files; the first failure ends it. -/
def readEach (read : β → Except ε α) : List β → Except ε (List α)
  | [] => .ok []
  | file :: files => do
      let x ← read file
      let xs ← readEach read files
      .ok (x :: xs)

/-- Files that hold records are read as the records. -/
theorem readEach_map {read : β → Except ε α} {file : α → β} {xs : List α}
    (h : ∀ x ∈ xs, read (file x) = .ok x) : readEach read (xs.map file) = .ok xs := by
  induction xs with
  | nil => rfl
  | cons x xs ih =>
    have hx := h x List.mem_cons_self
    have hxs := ih fun y hy => h y (List.mem_cons_of_mem _ hy)
    rw [List.map_cons, readEach, hx, hxs]
    rfl

/-- Every file was read. -/
theorem readEach_ok {read : β → Except ε α} {files : List β} {xs : List α}
    (h : readEach read files = .ok xs) {file : β} (hfile : file ∈ files) :
    ∃ x ∈ xs, read file = .ok x := by
  induction files generalizing xs with
  | nil => cases hfile
  | cons first files ih =>
    obtain ⟨x, hx, h⟩ := bind_ok h
    obtain ⟨ys, hys, h⟩ := bind_ok h
    cases h
    rcases List.mem_cons.1 hfile with rfl | hfile
    · exact ⟨x, List.mem_cons_self, hx⟩
    · obtain ⟨y, hy, hread⟩ := ih hys hfile
      exact ⟨y, List.mem_cons_of_mem _ hy, hread⟩

end Lib
