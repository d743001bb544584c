import Mathlib.Data.List.Infix

/-!
# Text as bytes

* `bytes` — the UTF-8 encoding of a text, which is injective (`bytes_inj`).
* `bytes_prefix`, `bytes_cut` — the encoding tells where its characters begin: an encoded
  text at the front of another is one of its prefixes, and a byte that may begin a character
  does.
* `append_sep_inj` — a separator that the first part does not contain marks its end.
-/

namespace Lib

/-- `str::as_bytes`. -/
def bytes (cs : List Char) : List UInt8 := cs.flatMap String.utf8EncodeChar

section Encoding

variable {cs ds u : List Char} {c : Char} {a b r : List UInt8} {x : UInt8}

@[simp] theorem bytes_nil : bytes [] = [] := rfl

@[simp] theorem bytes_cons (c : Char) (cs : List Char) :
    bytes (c :: cs) = String.utf8EncodeChar c ++ bytes cs :=
  List.flatMap_cons

@[simp] theorem bytes_append (cs ds : List Char) : bytes (cs ++ ds) = bytes cs ++ bytes ds :=
  List.flatMap_append

theorem length_bytes_pos (h : cs ≠ []) : 0 < (bytes cs).length := by
  obtain ⟨c, cs, rfl⟩ := List.exists_cons_of_ne_nil h
  have hc := c.utf8Size_pos
  rw [bytes_cons, List.length_append, String.length_utf8EncodeChar]
  omega

theorem bytes_eq_nil : bytes cs = [] ↔ cs = [] := by
  constructor
  · intro h
    by_contra hne
    have hpos := length_bytes_pos hne
    rw [h] at hpos
    exact lt_irrefl 0 hpos
  · rintro rfl
    rfl

theorem length_le_length_bytes (cs : List Char) : cs.length ≤ (bytes cs).length := by
  induction cs with
  | nil => simp
  | cons c cs ih =>
    have hc := c.utf8Size_pos
    rw [bytes_cons, List.length_append, List.length_cons, String.length_utf8EncodeChar]
    omega

/-- An encoded text at the front of another is the encoding of a prefix. -/
theorem bytes_prefix (h : bytes u ++ r = bytes cs) : ∃ v, cs = u ++ v ∧ r = bytes v := by
  have henc : u.utf8Encode ++ r.toByteArray = cs.utf8Encode := by
    have harr := congrArg List.toByteArray h
    rwa [List.toByteArray_append] at harr
  obtain ⟨v, rfl⟩ := List.isPrefix_of_utf8Encode_append_eq_utf8Encode _ henc
  rw [bytes_append, List.append_cancel_left_eq] at h
  exact ⟨v, rfl, h⟩

theorem bytes_inj : bytes cs = bytes ds ↔ cs = ds := by
  constructor
  · intro h
    obtain ⟨v, rfl, hv⟩ := bytes_prefix (u := ds) (r := []) (by rw [List.append_nil, h])
    rw [bytes_eq_nil.1 hv.symm, List.append_nil]
  · rintro rfl
    rfl

/-- A byte that may begin a character does: the text can be cut before it. -/
theorem bytes_cut (h : bytes cs = a ++ x :: b) (hx : x.IsUTF8FirstByte) :
    ∃ u v, cs = u ++ v ∧ a = bytes u ∧ x :: b = bytes v := by
  induction cs generalizing a with
  | nil => simp at h
  | cons c cs ih =>
    rw [bytes_cons] at h
    rcases List.append_eq_append_iff.1 h with ⟨a', rfl, hrest⟩ | ⟨a', henc, hrest⟩
    · obtain ⟨u, v, rfl, rfl, hv⟩ := ih hrest
      exact ⟨c :: u, v, rfl, rfl, hv⟩
    · cases a' with
      | nil =>
        obtain ⟨u, v, rfl, hu, hv⟩ := ih (a := []) hrest.symm
        exact ⟨c :: u, v, rfl, by rw [bytes_cons, henc, ← hu]; simp, hv⟩
      | cons y a' =>
        -- the byte stands inside the encoding of `c`, so it is its first one
        rw [List.cons_append, List.cons.injEq] at hrest
        obtain ⟨rfl, rfl⟩ := hrest
        have hi : a.length < (String.utf8EncodeChar c).length := by
          rw [henc, List.length_append, List.length_cons]
          omega
        have hget : (String.utf8EncodeChar c)[a.length] = x := by
          simp [henc]
        rw [← hget, UInt8.isUTF8FirstByte_getElem_utf8EncodeChar,
          List.length_eq_zero_iff] at hx
        subst hx
        exact ⟨[], c :: cs, rfl, rfl, by rw [bytes_cons, henc]; rfl⟩

/-- A character of one byte is in a text exactly when its byte is. -/
theorem mem_bytes (hc : String.utf8EncodeChar c = [x]) : x ∈ bytes cs ↔ c ∈ cs := by
  have hfirst : x.IsUTF8FirstByte := by
    have h0 := UInt8.isUTF8FirstByte_getElem_zero_utf8EncodeChar (c := c)
    simpa [hc] using h0
  constructor
  · intro hx
    obtain ⟨a, b, hab⟩ := List.append_of_mem hx
    obtain ⟨u, v, rfl, -, hv⟩ := bytes_cut hab hfirst
    obtain ⟨v, rfl, -⟩ := bytes_prefix (u := [c]) (r := b) (by rw [← hv, bytes_cons, hc]; rfl)
    simp
  · intro h
    exact List.mem_flatMap.2 ⟨c, h, by simp [hc]⟩

end Encoding

/-! ## Separators -/

section Separators

variable {α : Type*} {sep : α} {a a' b b' : List α}

/-- The first separator ends the first part. -/
theorem append_sep_inj (ha : sep ∉ a) (ha' : sep ∉ a') :
    a ++ sep :: b = a' ++ sep :: b' ↔ a = a' ∧ b = b' := by
  constructor
  · intro h
    induction a generalizing a' with
    | nil =>
      cases a' with
      | nil => simpa using h
      | cons y a' =>
        rw [List.nil_append, List.cons_append, List.cons.injEq] at h
        exact absurd (h.1 ▸ List.mem_cons_self) ha'
    | cons x a ih =>
      cases a' with
      | nil =>
        rw [List.nil_append, List.cons_append, List.cons.injEq] at h
        exact absurd (h.1 ▸ List.mem_cons_self) ha
      | cons y a' =>
        rw [List.cons_append, List.cons_append, List.cons.injEq] at h
        rw [List.mem_cons, not_or] at ha ha'
        obtain ⟨rfl, rfl⟩ := ih ha.2 ha'.2 h.2
        exact ⟨by rw [h.1], rfl⟩
  · rintro ⟨rfl, rfl⟩
    rfl

end Separators

end Lib
