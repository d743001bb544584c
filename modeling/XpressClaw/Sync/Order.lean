import Mathlib.Data.Prod.Lex
import Mathlib.Data.String.Basic
import XpressClaw.Lib.Graph
import XpressClaw.Sync.Threads

/-!
# The order in which messages are imported

`message_import_order` is a topological sort of the messages of a snapshot by their parents, with
the oldest message first wherever the parents leave a choice.

* `Ordering` — the invariant of its loop: which messages are ordered, and that `ready` holds
  exactly those whose turn has come.
* `message_import_order_sorts` — what it accepts, what it returns, and that the order of its
  input does not matter.
-/

namespace XpressClaw.Sync

open Lib

/-! ## The choice of the next message -/

namespace Ready

/-- What the entries are ordered by. -/
def key (r : Ready) : String ×ₗ String ×ₗ ℕ := toLex (r.createdAt, toLex (r.recordId, r.index))

theorem le_iff {a b : Ready} : a.le b = true ↔ a.key ≤ b.key := by
  simp only [le, key, Prod.Lex.toLex_le_toLex, Bool.or_eq_true, Bool.and_eq_true,
    decide_eq_true_eq]

theorem le_refl (a : Ready) : a.le a = true := le_iff.2 le_rfl

/-- What the entries are ordered by, apart from their indices. -/
def name (r : Ready) : String ×ₗ String := toLex (r.createdAt, r.recordId)

theorem name_le {a b : Ready} (h : a.le b = true) : a.name ≤ b.name := by
  have h := le_iff.1 h
  simp only [key, name, Prod.Lex.toLex_le_toLex] at h ⊢
  rcases h with h | ⟨h, h' | ⟨h', -⟩⟩
  · exact Or.inl h
  · exact Or.inr ⟨h, le_of_lt h'⟩
  · exact Or.inr ⟨h, le_of_eq h'⟩

theorem first_eq_none {rows : List Ready} (h : first rows = none) : rows = [] := by
  cases rows with
  | nil => rfl
  | cons r rows =>
    rw [first] at h
    cases hrest : first rows with
    | none => simp [hrest] at h
    | some r' =>
      rw [hrest] at h
      simp only at h
      split at h <;> cases h

/-- The first entry is one of them, and no other goes before it. -/
theorem first_spec {rows : List Ready} {r : Ready} (h : first rows = some r) :
    r ∈ rows ∧ ∀ r' ∈ rows, r.le r' = true := by
  induction rows generalizing r with
  | nil => cases h
  | cons a rows ih =>
    rw [first] at h
    cases hrest : first rows with
    | none =>
      rw [hrest] at h
      cases h
      refine ⟨List.mem_cons_self .., fun r' hr' => ?_⟩
      rw [first_eq_none hrest, List.mem_singleton] at hr'
      rw [hr']
      exact le_refl _
    | some b =>
      rw [hrest] at h
      obtain ⟨hb, hmin⟩ := ih hrest
      simp only at h
      split at h
      · rename_i hab
        cases h
        refine ⟨List.mem_cons_self .., fun r' hr' => ?_⟩
        rcases List.mem_cons.1 hr' with rfl | hr'
        · exact le_refl _
        · exact le_iff.2 ((le_iff.1 hab).trans (le_iff.1 (hmin r' hr')))
      · rename_i hab
        cases h
        refine ⟨List.mem_cons_of_mem _ hb, fun r' hr' => ?_⟩
        rcases List.mem_cons.1 hr' with rfl | hr'
        · exact le_iff.2 ((le_total _ _).resolve_left fun h => hab (le_iff.2 h))
        · exact hmin r' hr'

end Ready

/-! ## The invariant of the loop -/

/-- The edges from every message to its parent. -/
def parentEdges (records : List (String × Option String × String)) : List (String × String) :=
  records.filterMap fun r => r.2.1.map fun parent => (r.1, parent)

/-- The ids of the records at some indices. -/
def idsAt (records : List (String × Option String × String)) (indices : List ℕ) : List String :=
  indices.filterMap fun i => (records[i]?).map (·.1)

/-- The loop has ordered the records at `done`, newest first: `ready` holds the others whose
parent, if they have one, is among them. -/
structure Ordering (records : List (String × Option String × String)) (done : List ℕ)
    (ready : List Ready) : Prop where
  nodup : done.Nodup
  bound : ∀ i ∈ done, i < records.length
  topological : Graph.Topological (parentEdges records) (idsAt records done)
  mem_ready : ∀ r, r ∈ ready ↔ r.index ∉ done ∧
    ∃ parent, records[r.index]? = some (r.recordId, parent, r.createdAt) ∧
      ∀ p ∈ parent, p ∈ idsAt records done

section Invariant

variable {records : List (String × Option String × String)} {done : List ℕ} {ready : List Ready}

theorem mem_parentEdges {id parent : String} :
    (id, parent) ∈ parentEdges records ↔ ∃ createdAt, (id, some parent, createdAt) ∈ records := by
  simp only [parentEdges, List.mem_filterMap, Option.map_eq_some_iff, Prod.mk.injEq]
  constructor
  · rintro ⟨⟨id', parent', createdAt⟩, hr, p, hp, rfl, rfl⟩
    simp only at hp
    exact ⟨createdAt, hp ▸ hr⟩
  · rintro ⟨createdAt, hr⟩
    exact ⟨_, hr, parent, rfl, rfl, rfl⟩

theorem mem_idsAt {indices : List ℕ} {id : String} :
    id ∈ idsAt records indices ↔
      ∃ i ∈ indices, ∃ parent createdAt, records[i]? = some (id, parent, createdAt) := by
  simp only [idsAt, List.mem_filterMap, Option.map_eq_some_iff]
  constructor
  · rintro ⟨i, hi, ⟨id', parent, createdAt⟩, hr, rfl⟩
    exact ⟨i, hi, parent, createdAt, hr⟩
  · rintro ⟨i, hi, parent, createdAt, hr⟩
    exact ⟨i, hi, _, hr, rfl⟩

theorem index_unique (hids : (records.map (·.1)).Nodup) {i j : ℕ} {id : String}
    {parent parent' : Option String} {createdAt createdAt' : String}
    (hi : records[i]? = some (id, parent, createdAt))
    (hj : records[j]? = some (id, parent', createdAt')) : i = j := by
  have hlt : i < (records.map (·.1)).length := by
    rw [List.length_map]
    exact (List.getElem?_eq_some_iff.1 hi).1
  apply (List.getElem?_inj hlt hids).1
  rw [List.getElem?_map, List.getElem?_map, hi, hj]
  rfl

theorem Ordering.entry_unique (h : Ordering records done ready) {r r' : Ready} (hr : r ∈ ready)
    (hr' : r' ∈ ready)
    (hindex : r.index = r'.index) : r = r' := by
  obtain ⟨-, parent, hrec, -⟩ := (h.mem_ready r).1 hr
  obtain ⟨-, parent', hrec', -⟩ := (h.mem_ready r').1 hr'
  rw [hindex, hrec'] at hrec
  obtain ⟨hid, -, hcreated⟩ : r'.recordId = r.recordId ∧ parent' = parent ∧
      r'.createdAt = r.createdAt := by simpa using hrec
  cases r
  cases r'
  simp_all

theorem mem_filterMap_parent {parent : Option String} {r : Ready} :
    (r ∈ records.zipIdx.filterMap fun e =>
      if e.1.2.1 = parent then some (⟨e.1.2.2, e.1.1, e.2⟩ : Ready) else none) ↔
      records[r.index]? = some (r.recordId, parent, r.createdAt) := by
  simp only [List.mem_filterMap, Option.ite_none_right_eq_some, Option.some.injEq]
  constructor
  · rintro ⟨⟨⟨id, parent', createdAt⟩, i⟩, hmem, rfl, rfl⟩
    exact List.mk_mem_zipIdx_iff_getElem?.1 hmem
  · intro h
    exact ⟨⟨_, r.index⟩, List.mk_mem_zipIdx_iff_getElem?.2 h, rfl, rfl⟩

/-- The children of a message, as the loop puts them into `ready`. -/
def childrenOf (records : List (String × Option String × String)) (recordId : String) :
    List Ready :=
  records.zipIdx.filterMap fun e =>
    if e.1.2.1 = some recordId then some ⟨e.1.2.2, e.1.1, e.2⟩ else none

theorem mem_childrenOf {recordId : String} {r : Ready} :
    r ∈ childrenOf records recordId ↔
      records[r.index]? = some (r.recordId, some recordId, r.createdAt) := mem_filterMap_parent

/-- The records that have no parent, as `message_import_order` starts with them. -/
def rootsOf (records : List (String × Option String × String)) : List Ready :=
  records.zipIdx.filterMap fun e =>
    if e.1.2.1 = none then some ⟨e.1.2.2, e.1.1, e.2⟩ else none

theorem mem_rootsOf {r : Ready} :
    r ∈ rootsOf records ↔ records[r.index]? = some (r.recordId, none, r.createdAt) :=
  mem_filterMap_parent

theorem ordering_start (records : List (String × Option String × String)) :
    Ordering records [] (rootsOf records) where
  nodup := List.nodup_nil
  bound := by simp
  topological := trivial
  mem_ready r := by
    rw [mem_rootsOf]
    constructor
    · intro h
      exact ⟨List.not_mem_nil, none, h, by simp⟩
    · rintro ⟨-, parent, h, hparent⟩
      cases parent with
      | none => exact h
      | some p => exact absurd (hparent p rfl) (by simp [idsAt])

theorem idsAt_cons {i : ℕ} {id createdAt : String} {parent : Option String}
    (h : records[i]? = some (id, parent, createdAt)) :
    idsAt records (i :: done) = id :: idsAt records done := by
  simp [idsAt, h]

theorem mem_of_mem_idsAt (hids : (records.map (·.1)).Nodup) {i : ℕ} {id createdAt : String}
    {parent : Option String} (h : records[i]? = some (id, parent, createdAt))
    (hid : id ∈ idsAt records done) : i ∈ done := by
  obtain ⟨j, hj, parent', createdAt', hrec⟩ := mem_idsAt.1 hid
  exact index_unique hids h hrec ▸ hj

/-- One turn of the loop. -/
theorem Ordering.step (h : Ordering records done ready) (hids : (records.map (·.1)).Nodup)
    {r : Ready} (hr : r ∈ ready) :
    Ordering records (r.index :: done)
      (ready.filter (· ≠ r) ++ childrenOf records r.recordId) := by
  obtain ⟨hnew, parent, hrec, hparent⟩ := (h.mem_ready r).1 hr
  have hcons : idsAt records (r.index :: done) = r.recordId :: idsAt records done :=
    idsAt_cons hrec
  have hunordered : r.recordId ∉ idsAt records done := fun hid =>
    hnew (mem_of_mem_idsAt hids hrec hid)
  refine ⟨List.nodup_cons.2 ⟨hnew, h.nodup⟩, ?_, ?_, fun x => ?_⟩
  · intro i hi
    rcases List.mem_cons.1 hi with rfl | hi
    · exact (List.getElem?_eq_some_iff.1 hrec).1
    · exact h.bound i hi
  · rw [hcons]
    refine ⟨h.topological, hunordered, fun p hp => ?_⟩
    obtain ⟨createdAt, hmem⟩ := mem_parentEdges.1 hp
    obtain ⟨i, hi⟩ := List.mem_iff_getElem?.1 hmem
    have hsame : i = r.index := index_unique hids hi hrec
    rw [hsame, hrec] at hi
    obtain ⟨hp, -⟩ : parent = some p ∧ r.createdAt = createdAt := by simpa using hi
    exact hparent p hp
  · rw [List.mem_append, List.mem_filter, mem_childrenOf, hcons, decide_eq_true_eq]
    constructor
    · rintro (⟨hx, hne⟩ | hx)
      · obtain ⟨hold, parent', hxrec, hxparent⟩ := (h.mem_ready x).1 hx
        refine ⟨?_, parent', hxrec, fun p hp => List.mem_cons_of_mem _ (hxparent p hp)⟩
        rw [List.mem_cons, not_or]
        exact ⟨fun hindex => hne (h.entry_unique hx hr hindex), hold⟩
      · refine ⟨?_, _, hx, fun p hp => ?_⟩
        · rw [List.mem_cons, not_or]
          constructor
          · -- a message that is its own parent never gets ready
            intro hindex
            rw [hindex, hrec] at hx
            obtain ⟨-, hself, -⟩ : r.recordId = x.recordId ∧ parent = some r.recordId ∧
                r.createdAt = x.createdAt := by simpa using hx
            exact hunordered (hparent _ hself)
          · -- an ordered child would have its parent before it
            intro hdone
            have hid : x.recordId ∈ idsAt records done :=
              mem_idsAt.2 ⟨x.index, hdone, _, _, hx⟩
            have hedge : (x.recordId, r.recordId) ∈ parentEdges records :=
              mem_parentEdges.2 ⟨x.createdAt, List.mem_of_getElem? hx⟩
            exact hunordered (h.topological.closed hid hedge)
        · cases hp
          exact List.mem_cons_self ..
    · rintro ⟨hx, parent', hxrec, hxparent⟩
      rw [List.mem_cons, not_or] at hx
      by_cases hchild : parent' = some r.recordId
      · exact Or.inr (hchild ▸ hxrec)
      · refine Or.inl ⟨(h.mem_ready x).2 ⟨hx.2, parent', hxrec, fun p hp => ?_⟩, ?_⟩
        · rcases List.mem_cons.1 (hxparent p hp) with rfl | hp'
          · exact absurd hp hchild
          · exact hp'
        · rintro rfl
          exact hx.1 rfl

theorem Ordering.length_le (h : Ordering records done ready) : done.length ≤ records.length := by
  have hsub : done ⊆ List.range records.length := fun i hi => List.mem_range.2 (h.bound i hi)
  simpa using (h.nodup.subperm hsub).length_le

/-- The loop ends with nothing ready: every turn orders one more record, so the fuel lasts. -/
theorem Ordering.run (hids : (records.map (·.1)).Nodup) :
    ∀ (fuel : ℕ) {done : List ℕ} {ready : List Ready}, Ordering records done ready →
      records.length < done.length + fuel →
      Ordering records ((orderMessages records fuel ready).reverse ++ done) [] := by
  intro fuel
  induction fuel with
  | zero =>
    intro done ready h hfuel
    have hle := h.length_le
    omega
  | succ fuel ih =>
    intro done ready h hfuel
    rw [orderMessages]
    cases hfirst : Ready.first ready with
    | none =>
      rw [Ready.first_eq_none hfirst] at h
      exact h
    | some r =>
      have hstep := h.step hids (Ready.first_spec hfirst).1
      have hfuel' : records.length < (r.index :: done).length + fuel := by
        rw [List.length_cons]
        omega
      have hrun := ih hstep hfuel'
      simp only [List.reverse_cons, List.append_assoc, List.singleton_append]
      exact hrun

/-- What the loop of `message_import_order` returns. -/
def ordered (records : List (String × Option String × String)) : List ℕ :=
  orderMessages records (records.length + 1) (rootsOf records)

theorem ordering_ordered (hids : (records.map (·.1)).Nodup) :
    Ordering records (ordered records).reverse [] := by
  have h := Ordering.run hids (records.length + 1) (ordering_start records)
    (by simp)
  rwa [List.append_nil] at h

theorem Ordering.perm (h : Ordering records done []) (hlength : done.length = records.length) :
    done.Perm (List.range records.length) := by
  have hsub : done ⊆ List.range records.length := fun i hi => List.mem_range.2 (h.bound i hi)
  exact (h.nodup.subperm hsub).perm_of_length_le (by simp [hlength])

theorem length_ordered_iff (hids : (records.map (·.1)).Nodup)
    (hparents : ∀ r ∈ records, ∀ p ∈ r.2.1, p ∈ records.map (·.1)) :
    (ordered records).length = records.length ↔ Graph.Acyclic (parentEdges records) := by
  have h := ordering_ordered hids
  constructor
  · intro hlength
    have hperm := h.perm (by simpa using hlength)
    apply Graph.acyclic_of_topological h.topological
    rintro ⟨id, parent⟩ he
    obtain ⟨createdAt, hmem⟩ := mem_parentEdges.1 he
    obtain ⟨i, hi⟩ := List.mem_iff_getElem?.1 hmem
    have hdone : i ∈ (ordered records).reverse :=
      hperm.mem_iff.2 (List.mem_range.2 (List.getElem?_eq_some_iff.1 hi).1)
    exact mem_idsAt.2 ⟨i, hdone, _, _, hi⟩
  · intro hacyclic
    have hall : ∀ id ∈ records.map (·.1), id ∈ idsAt records (ordered records).reverse := by
      apply hacyclic.covers
      intro id hid hmissing
      obtain ⟨⟨id, parent, createdAt⟩, hmem, rfl⟩ := List.mem_map.1 hid
      obtain ⟨i, hi⟩ := List.mem_iff_getElem?.1 hmem
      have hi' : i ∉ (ordered records).reverse := fun hdone =>
        hmissing (mem_idsAt.2 ⟨i, hdone, _, _, hi⟩)
      -- it is not ready, so it waits for a parent
      have hwaits : ¬ ∀ p ∈ parent, p ∈ idsAt records (ordered records).reverse := fun hready =>
        List.not_mem_nil ((h.mem_ready ⟨createdAt, id, i⟩).2 ⟨hi', parent, hi, hready⟩)
      push Not at hwaits
      obtain ⟨p, hp, hpmissing⟩ := hwaits
      cases hp
      exact ⟨p, hparents _ hmem p rfl, mem_parentEdges.2 ⟨createdAt, hmem⟩, hpmissing⟩
    have hsub : List.range records.length ⊆ (ordered records).reverse := by
      intro i hi
      have hlt := List.mem_range.1 hi
      have hrec : records[i]? = some records[i] := List.getElem?_eq_getElem hlt
      have hid := hall records[i].1 (List.mem_map_of_mem (List.getElem_mem hlt))
      exact mem_of_mem_idsAt hids hrec hid
    have hge := (List.nodup_range.subperm hsub).length_le
    have hle := h.length_le
    simp only [List.length_range, List.length_reverse] at hge hle
    omega

/-- Every parent is one of the records. -/
def ParentsListed (records : List (String × Option String × String)) : Prop :=
  ∀ r ∈ records, ∀ p ∈ r.2.1, p ∈ records.map (·.1)

theorem parentsListed_iff :
    ParentsListed records ↔ ∀ r ∈ records, r.2.1.all (· ∈ records.map (·.1)) := by
  simp only [ParentsListed, Option.all_eq_true, decide_eq_true_eq, Option.mem_def]

instance : Decidable (ParentsListed records) := decidable_of_iff' _ parentsListed_iff

theorem messageImportOrder_eq : messageImportOrder records =
    if ParentsListed records then
      if (ordered records).length = records.length then .ok (ordered records)
      else .error (.sync "message parent graph contains a cycle")
    else .error (.sync "message record references an unknown parent") := by
  have heq : messageImportOrder records = (do
      require (∀ r ∈ records, r.2.1.all (· ∈ records.map (·.1)))
        (.sync "message record references an unknown parent")
      require ((ordered records).length = records.length)
        (.sync "message parent graph contains a cycle")
      .ok (ordered records)) := rfl
  rw [heq]
  simp only [parentsListed_iff, require]
  by_cases hparents : ∀ r ∈ records, r.2.1.all (· ∈ records.map (·.1))
  · rw [if_pos hparents, if_pos hparents]
    by_cases hlength : (ordered records).length = records.length
    · rw [if_pos hlength, if_pos hlength]
      rfl
    · rw [if_neg hlength, if_neg hlength]
      rfl
  · rw [if_neg hparents, if_neg hparents]
    rfl

theorem messageImportOrder_ok {order : List ℕ} :
    messageImportOrder records = .ok order ↔ ParentsListed records ∧
      (ordered records).length = records.length ∧ order = ordered records := by
  rw [messageImportOrder_eq]
  split
  · rename_i hparents
    split
    · rename_i hlength
      simp only [hparents, hlength, true_and, Except.ok.injEq, eq_comm]
    · rename_i hlength
      simp [hlength]
  · rename_i hparents
    simp [hparents]

end Invariant

/-! ## The order of the input -/

section Permuted

variable {records records' : List (String × Option String × String)} {done done' : List ℕ}
  {ready ready' : List Ready}

theorem Ordering.ready_same (hperm : records.Perm records')
    (hids : (records.map (·.1)).Nodup) (h : Ordering records done ready)
    (h' : Ordering records' done' ready')
    (hdone : idsAt records done = idsAt records' done') {r : Ready} (hr : r ∈ ready) :
    ∃ r' ∈ ready', r'.recordId = r.recordId ∧ r'.createdAt = r.createdAt := by
  obtain ⟨hnew, parent, hrec, hparent⟩ := (h.mem_ready r).1 hr
  obtain ⟨i, hi⟩ := List.mem_iff_getElem?.1 (hperm.mem_iff.1 (List.mem_of_getElem? hrec))
  refine ⟨⟨r.createdAt, r.recordId, i⟩, (h'.mem_ready _).2 ⟨fun hmem => ?_, parent, hi, ?_⟩,
    rfl, rfl⟩
  · have hid : r.recordId ∈ idsAt records' done' := mem_idsAt.2 ⟨i, hmem, _, _, hi⟩
    exact hnew (mem_of_mem_idsAt hids hrec (hdone ▸ hid))
  · exact fun p hp => hdone ▸ hparent p hp

/-- On the records in another order the loop orders the same messages. -/
theorem orderMessages_perm (hperm : records.Perm records')
    (hids : (records.map (·.1)).Nodup) :
    ∀ (fuel : ℕ) {done done' : List ℕ} {ready ready' : List Ready},
      Ordering records done ready → Ordering records' done' ready' →
      idsAt records done = idsAt records' done' →
      (orderMessages records fuel ready).map (records[·]?) =
        (orderMessages records' fuel ready').map (records'[·]?) := by
  have hids' : (records'.map (·.1)).Nodup := (hperm.map _).nodup_iff.1 hids
  intro fuel
  induction fuel with
  | zero => intros; rfl
  | succ fuel ih =>
    intro done done' ready ready' h h' hdone
    rw [orderMessages, orderMessages]
    cases hfirst : Ready.first ready with
    | none =>
      have hempty : ready' = [] := by
        apply List.eq_nil_iff_forall_not_mem.2
        intro r' hr'
        obtain ⟨r, hr, -⟩ := h'.ready_same hperm.symm hids' h hdone.symm hr'
        rw [Ready.first_eq_none hfirst] at hr
        exact List.not_mem_nil hr
      rw [hempty]
      rfl
    | some r =>
      obtain ⟨hr, hmin⟩ := Ready.first_spec hfirst
      cases hfirst' : Ready.first ready' with
      | none =>
        obtain ⟨r', hr', -⟩ := h.ready_same hperm hids h' hdone hr
        rw [Ready.first_eq_none hfirst'] at hr'
        exact absurd hr' List.not_mem_nil
      | some r' =>
        obtain ⟨hr', hmin'⟩ := Ready.first_spec hfirst'
        -- each is the first of its list, so they have one time and one id
        have hname : r.name = r'.name := by
          obtain ⟨x', hx', hxid', hxat'⟩ := h.ready_same hperm hids h' hdone hr
          obtain ⟨x, hx, hxid, hxat⟩ := h'.ready_same hperm.symm hids' h hdone.symm hr'
          have hle : r.name ≤ r'.name := by
            have hx := Ready.name_le (hmin x hx)
            rwa [Ready.name, Ready.name, hxid, hxat] at hx
          have hge : r'.name ≤ r.name := by
            have hx' := Ready.name_le (hmin' x' hx')
            rwa [Ready.name, Ready.name, hxid', hxat'] at hx'
          exact le_antisymm hle hge
        obtain ⟨-, hid⟩ : r.createdAt = r'.createdAt ∧ r.recordId = r'.recordId := by
          simpa [Ready.name] using hname
        obtain ⟨-, parent, hrec, -⟩ := (h.mem_ready r).1 hr
        obtain ⟨-, parent', hrec', -⟩ := (h'.mem_ready r').1 hr'
        have hsame : records[r.index]? = records'[r'.index]? := by
          obtain ⟨i, hi⟩ := List.mem_iff_getElem?.1
            (hperm.mem_iff.1 (List.mem_of_getElem? hrec))
          rw [hrec, ← hi, index_unique hids' hi (hid ▸ hrec')]
        have hdone' : idsAt records (r.index :: done) =
            idsAt records' (r'.index :: done') := by
          rw [idsAt_cons hrec, idsAt_cons hrec', hdone, hid]
        have hrest := ih (h.step hids hr) (h'.step hids' hr') hdone'
        simp only [List.map_cons, hsame]
        rw [List.cons.injEq]
        exact ⟨rfl, hrest⟩

theorem ordered_perm (hperm : records.Perm records') (hids : (records.map (·.1)).Nodup) :
    (ordered records).map (records[·]?) = (ordered records').map (records'[·]?) := by
  unfold ordered
  rw [hperm.length_eq]
  exact orderMessages_perm hperm hids _ (ordering_start _) (ordering_start _) rfl

theorem ParentsListed.perm (hperm : records.Perm records') (h : ParentsListed records) :
    ParentsListed records' := fun r hr p hp =>
  (hperm.map _).mem_iff.1 (h r (hperm.mem_iff.2 hr) p hp)

theorem inImportOrder_perm (hperm : records.Perm records')
    (hids : (records.map (·.1)).Nodup) : inImportOrder id records' = inImportOrder id records := by
  have hmap := ordered_perm hperm hids
  have hlength : (ordered records').length = (ordered records).length := by
    simpa using (congrArg List.length hmap).symm
  have hmessages : (ordered records').filterMap (records'[·]?) =
      (ordered records).filterMap (records[·]?) := by
    have h := congrArg (List.filterMap fun x => x) hmap
    simpa only [List.filterMap_map, Function.comp_def] using h.symm
  have hparents : ParentsListed records' ↔ ParentsListed records :=
    ⟨ParentsListed.perm hperm.symm, ParentsListed.perm hperm⟩
  unfold inImportOrder
  simp only [List.map_id_fun, id_eq, messageImportOrder_eq, hparents, hlength, hperm.length_eq]
  split
  · split
    · exact congrArg Except.ok hmessages
    · rfl
  · rfl

end Permuted

/-! ## The sort -/

theorem filterMap_range_getElem? {π : Type} (xs : List π) :
    (List.range xs.length).filterMap (xs[·]?) = xs := by
  induction xs with
  | nil => rfl
  | cons x xs ih =>
    rw [List.length_cons, List.range_succ_eq_map, List.filterMap_cons, List.filterMap_map]
    simpa [Function.comp_def] using ih

/-- The messages in the order in which they are imported are the messages. -/
theorem perm_inImportOrder {π : Type} {record : π → String × Option String × String}
    {xs messages : List π} (hids : (xs.map fun p => (record p).1).Nodup)
    (h : inImportOrder record xs = .ok messages) : messages.Perm xs := by
  obtain ⟨order, horder, h⟩ := bind_ok h
  cases h
  have hids' : ((xs.map record).map (·.1)).Nodup := by
    rw [List.map_map]
    exact hids
  obtain ⟨-, hlength, rfl⟩ := messageImportOrder_ok.1 horder
  have hperm := (ordering_ordered hids').perm (by simpa using hlength)
  have hrange : (ordered (xs.map record)).Perm (List.range xs.length) := by
    simpa using (List.reverse_perm _).symm.trans hperm
  have hmessages := hrange.filterMap (xs[·]?)
  rwa [filterMap_range_getElem?] at hmessages

/-- A message comes after its parent. -/
theorem parent_before {records : List (String × Option String × String)}
    {order before after : List ℕ}
    {i : ℕ} {id parent createdAt : String}
    (h : Graph.Topological (parentEdges records) (idsAt records order.reverse))
    (horder : order = before ++ i :: after)
    (hi : records[i]? = some (id, some parent, createdAt)) : parent ∈ idsAt records before := by
  have hsplit : idsAt records order.reverse =
      idsAt records after.reverse ++ id :: idsAt records before.reverse := by
    rw [horder, List.reverse_append, List.reverse_cons, List.append_assoc, List.singleton_append]
    unfold idsAt
    rw [List.filterMap_append]
    exact congrArg _ (idsAt_cons hi)
  rw [hsplit] at h
  have hbefore : parent ∈ idsAt records before.reverse :=
    h.of_append.2.2 parent (mem_parentEdges.2 ⟨createdAt, List.mem_of_getElem? hi⟩)
  obtain ⟨j, hj, hrec⟩ := mem_idsAt.1 hbefore
  exact mem_idsAt.2 ⟨j, List.mem_reverse.1 hj, hrec⟩

/-- `message_import_order` on records with different ids: it accepts them exactly when all
parents are among them and no message is above itself; what it returns is all of them, each
after its parent; and the order in which they are given makes no difference. -/
theorem message_import_order_sorts (records : List (String × Option String × String))
    (hids : (records.map (·.1)).Nodup) :
    ((∃ order, messageImportOrder records = .ok order) ↔
      (∀ r ∈ records, ∀ p ∈ r.2.1, p ∈ records.map (·.1)) ∧
        Graph.Acyclic (parentEdges records)) ∧
    (∀ order, messageImportOrder records = .ok order →
      order.Perm (List.range records.length) ∧
      ∀ before i after id parent createdAt, order = before ++ i :: after →
        records[i]? = some (id, some parent, createdAt) → parent ∈ idsAt records before) ∧
    ∀ records', records.Perm records' →
      inImportOrder (fun r => r) records' = inImportOrder (fun r => r) records := by
  refine ⟨?_, fun order horder => ?_, fun records' hperm => inImportOrder_perm hperm hids⟩
  · simp only [messageImportOrder_ok, exists_and_left, exists_eq, and_true]
    exact and_congr_right fun hparents => length_ordered_iff hids hparents
  · obtain ⟨-, hlength, rfl⟩ := messageImportOrder_ok.1 horder
    have h := ordering_ordered hids
    refine ⟨?_, fun before i after id parent createdAt hsplit hi =>
      parent_before h.topological hsplit hi⟩
    exact (List.reverse_perm _).symm.trans (h.perm (by simpa using hlength))

/-- A reply that is older than the message it replies to. -/
def replyFirst : List (String × Option String × String) :=
  [("a-child", some "z-parent", "2026-01-01 00:00:00"), ("z-parent", none, "2026-01-01 00:00:01")]

theorem message_import_order_replyFirst : messageImportOrder replyFirst = .ok [1, 0] ∧
    Graph.Acyclic (parentEdges replyFirst) ∧
      inImportOrder (fun r => r) replyFirst.reverse = .ok replyFirst.reverse := by
  have hsorts := message_import_order_sorts replyFirst (by decide)
  have horder : messageImportOrder replyFirst = .ok [1, 0] := by rfl
  refine ⟨horder, (hsorts.1.1 ⟨_, horder⟩).2, ?_⟩
  rw [hsorts.2.2 _ (List.reverse_perm replyFirst).symm]
  rfl

/-- A database that has the message `z-parent`. -/
def parentKnown : Db where
  taskThread :=
    { messages := [⟨1, "task-one", "user", "start", "2026-01-01 00:00:01", none⟩]
      sync := [⟨"z-parent", 1, none⟩]
      nextId := 2 }

/-- A snapshot that has the reply only. -/
def replyOnly : PortableSnapshot where
  project := { id := "project-one" }
  taskMessages := [⟨"a-child", some "z-parent", "task-one", none, "user", "reply",
    "2026-01-01 00:00:00"⟩]

/-- What makes a message acceptable is not that its parent is known, but that it is in the
snapshot. -/
theorem message_import_order_parentKnown :
    ¬ ∀ (db : Db) (s : PortableSnapshot), (s.taskMessages.map (·.recordId)).Nodup →
      ((∃ order, messageImportOrder (s.taskMessages.map fun p =>
          (p.recordId, p.parentRecordId, p.createdAt)) = .ok order) ↔
        (∀ m ∈ s.taskMessages, ∀ p ∈ m.parentRecordId, p ∈ s.taskMessages.map (·.recordId) ∨
          p ∈ db.taskThread.sync.map (·.recordId)) ∧
        Graph.Acyclic (parentEdges (s.taskMessages.map fun p =>
          (p.recordId, p.parentRecordId, p.createdAt)))) := by
  intro h
  have hacyclic : Graph.Acyclic (parentEdges (replyOnly.taskMessages.map fun p =>
      (p.recordId, p.parentRecordId, p.createdAt))) := by
    refine Graph.acyclic_of_topological (?_ : Graph.Topological _ ["a-child", "z-parent"]) ?_
    · simp [Graph.Topological, Graph.Edge, parentEdges, replyOnly]
    · simp [parentEdges, replyOnly]
  obtain ⟨order, horder⟩ := (h parentKnown replyOnly (by decide)).2 ⟨by decide, hacyclic⟩
  exact absurd (messageImportOrder_ok.1 horder).1 (by decide)

end XpressClaw.Sync
