import Mathlib.Data.Rat.Defs
import XpressClaw.Lib.Text

/-!
# JSON values

`serde_json::Value`.  Numbers are the rationals a JSON text can spell.  `serde_json::Map`
keeps its fields in the order of insertion here, and compares them in any order.  An object
built from fields has them sorted by key instead, so that equality of values is equality of
terms; nothing reads the order.
-/

namespace XpressClaw

/-- A JSON value. -/
inductive Json where
  | null
  | bool (b : Bool)
  | num (q : ℚ)
  | str (s : String)
  | arr (xs : List Json)
  | obj (fs : List (String × Json))

namespace Json

mutual
/-- Structural equality of values. -/
def beq : Json → Json → Bool
  | null, null => true
  | bool a, bool b => a = b
  | num a, num b => a = b
  | str a, str b => a = b
  | arr xs, arr ys => beqList xs ys
  | obj fs, obj gs => beqFields fs gs
  | _, _ => false

/-- Structural equality of arrays. -/
def beqList : List Json → List Json → Bool
  | [], [] => true
  | x :: xs, y :: ys => beq x y && beqList xs ys
  | _, _ => false

/-- Structural equality of fields. -/
def beqFields : List (String × Json) → List (String × Json) → Bool
  | [], [] => true
  | (k, x) :: fs, (l, y) :: gs => decide (k = l) && beq x y && beqFields fs gs
  | _, _ => false
end

theorem beq_iff : ∀ a b : Json, beq a b = true ↔ a = b := by
  refine @Json.rec
    (fun a => ∀ b, beq a b = true ↔ a = b)
    (fun xs => ∀ ys, beqList xs ys = true ↔ xs = ys)
    (fun fs => ∀ gs, beqFields fs gs = true ↔ fs = gs)
    (fun p => ∀ y, beq p.2 y = true ↔ p.2 = y)
    ?null ?bool ?num ?str ?arr ?obj ?nil ?cons ?fnil ?fcons ?mk
  case null => intro b; cases b <;> simp [beq]
  case bool => intro a b; cases b <;> simp [beq]
  case num => intro a b; cases b <;> simp [beq]
  case str => intro a b; cases b <;> simp [beq]
  case arr => intro xs ih b; cases b <;> simp [beq, ih]
  case obj => intro fs ih b; cases b <;> simp [beq, ih]
  case nil => intro ys; cases ys <;> simp [beqList]
  case cons => intro x xs ihx ihxs ys; cases ys <;> simp [beqList, ihx, ihxs]
  case fnil => intro gs; cases gs <;> simp [beqFields]
  case fcons =>
    rintro ⟨k, x⟩ fs ihp ihfs gs
    cases gs with
    | nil => simp [beqFields]
    | cons g gs =>
      obtain ⟨l, y⟩ := g
      have := ihp y
      simp only at this
      simp [beqFields, this, ihfs, and_assoc]
  case mk => intro k x ih; exact ih

instance : DecidableEq Json := fun a b => decidable_of_iff _ (beq_iff a b)

/-- Insert a field, replacing an older one of the same name. -/
def insertField (k : String) (v : Json) : List (String × Json) → List (String × Json)
  | [] => [(k, v)]
  | (k', v') :: fs =>
      if k = k' then (k, v) :: fs
      else if k < k' then (k, v) :: (k', v') :: fs
      else (k', v') :: insertField k v fs

/-- The object with the given fields, sorted by key; a later field wins over an earlier one. -/
def ofFields (fs : List (String × Json)) : Json :=
  .obj (fs.foldl (fun acc f => insertField f.1 f.2 acc) [])

/-- `Value::get` with a string: the field of an object. -/
def get? (k : String) : Json → Option Json
  | obj fs => (fs.find? fun f => f.1 = k).map Prod.snd
  | _ => none

/-- `Value::as_object`. -/
def asObject : Json → Option (List (String × Json))
  | obj fs => some fs
  | _ => none

/-- `Value::as_str`. -/
def asStr : Json → Option String
  | str s => some s
  | _ => none

/-- Whether the value is an object. -/
def isObject : Json → Bool
  | obj _ => true
  | _ => false

end Json

/-- A variable store: `HashMap<String, Value>`. -/
abbrev Vars := List (String × Json)

namespace Vars

/-- `HashMap::insert`. -/
def insert (vs : Vars) (k : String) (v : Json) : Vars := Json.insertField k v vs

/-- Insert several variables, in order. -/
def extend (vs fs : Vars) : Vars := fs.foldl (fun acc f => Vars.insert acc f.1 f.2) vs

/-- `HashMap::remove`. -/
def erase (vs : Vars) (k : String) : Vars := vs.filter fun f => f.1 ≠ k

/-- `HashMap::get`. -/
def get? (vs : Vars) (k : String) : Option Json := (vs.find? fun f => f.1 = k).map Prod.snd

theorem get?_cons (vs : Vars) (k k' : String) (v : Json) :
    get? ((k, v) :: vs) k' = if k = k' then some v else get? vs k' := by
  by_cases h : k = k' <;> simp [get?, h]

theorem get?_insert (vs : Vars) (k k' : String) (v : Json) :
    get? (insert vs k v) k' = if k' = k then some v else get? vs k' := by
  induction vs with
  | nil => simp [insert, Json.insertField, get?_cons, eq_comm]
  | cons f fs ih =>
    obtain ⟨n, w⟩ := f
    rw [insert] at ih ⊢
    rw [Json.insertField]
    split
    · rename_i hn
      subst hn
      rw [get?_cons, get?_cons]
      grind
    · split
      · rw [get?_cons]
        grind
      · rw [get?_cons, get?_cons, ih]
        grind

theorem mem_insert {vs : Vars} {f : String × Json} {n : String} {v : Json} (h : f ∈ insert vs n v) :
    f = (n, v) ∨ f ∈ vs := by
  rw [insert] at h
  induction vs with
  | nil => exact Or.inl (List.mem_singleton.1 h)
  | cons g vs ih =>
    obtain ⟨m, w⟩ := g
    rw [Json.insertField] at h
    split at h
    · rcases List.mem_cons.1 h with h | h
      · exact Or.inl h
      · exact Or.inr (List.mem_cons_of_mem _ h)
    · split at h
      · exact List.mem_cons.1 h
      · rcases List.mem_cons.1 h with h | h
        · exact Or.inr (h ▸ List.mem_cons_self ..)
        · rcases ih h with h | h
          · exact Or.inl h
          · exact Or.inr (List.mem_cons_of_mem _ h)

end Vars
end XpressClaw
