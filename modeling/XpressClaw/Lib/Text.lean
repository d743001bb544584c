import Mathlib.Data.List.DropRight
import Mathlib.Data.List.Infix

/-!
# Text as the standard library cuts it

The string functions of the Rust standard library that the modelled code uses,
written on lists of characters so that they compute by structural recursion.
White space is the Unicode property `White_Space`, as for `char::is_whitespace`.
-/

namespace Lib.Text

/-- `char::is_whitespace`. -/
def isWhitespace (c : Char) : Bool :=
  let n := c.toNat
  (9 ≤ n && n ≤ 13) || n == 0x20 || n == 0x85 || n == 0xA0 || n == 0x1680 ||
    (0x2000 ≤ n && n ≤ 0x200A) || n == 0x2028 || n == 0x2029 || n == 0x202F ||
    n == 0x205F || n == 0x3000

/-- `char::is_control`: the Unicode category `Cc`. -/
def isControl (c : Char) : Bool :=
  let n := c.toNat
  n < 0x20 || (0x7F ≤ n && n ≤ 0x9F)

/-- `str::trim`. -/
def trim (s : String) : String :=
  String.ofList
    ((s.toList.dropWhile isWhitespace).reverse.dropWhile isWhitespace).reverse

/-- Nothing but white space. -/
def isBlank (s : String) : Bool := s.toList.all isWhitespace

/-- The words of a text, `acc` being the word read so far. -/
def wordsAux : List Char → List Char → List String
  | [], acc => if acc.isEmpty then [] else [String.ofList acc.reverse]
  | c :: cs, acc =>
      if isWhitespace c then
        if acc.isEmpty then wordsAux cs [] else String.ofList acc.reverse :: wordsAux cs []
      else wordsAux cs (c :: acc)

/-- `str::split_whitespace`. -/
def splitWhitespace (s : String) : List String := wordsAux s.toList []

/-- The pieces of a text between separators, `acc` being the piece read so far. -/
def splitAux (sep : Char) : List Char → List Char → List String
  | [], acc => [String.ofList acc.reverse]
  | c :: cs, acc =>
      if c = sep then String.ofList acc.reverse :: splitAux sep cs []
      else splitAux sep cs (c :: acc)

/-- `str::split` on a character. -/
def splitChar (sep : Char) (s : String) : List String := splitAux sep s.toList []

/-- Whether `p` occurs in `s` at some position. -/
def containsList (p : List Char) : List Char → Bool
  | [] => p.isEmpty
  | c :: cs => p.isPrefixOf (c :: cs) || containsList p cs

/-- `str::contains` with a string pattern. -/
def contains (s p : String) : Bool := containsList p.toList s.toList

/-- `str::starts_with` with a string pattern. -/
def startsWith (s p : String) : Bool := p.toList.isPrefixOf s.toList

/-- `str::trim_start_matches` with a character. -/
def trimStartMatches (c : Char) (s : String) : String :=
  String.ofList (s.toList.dropWhile (· == c))

/-- `str::to_ascii_lowercase`. -/
def asciiLower (s : String) : String := String.ofList (s.toList.map Char.toLower)

/-! ## Trimmed texts -/

theorem toList_trim (s : String) :
    (trim s).toList = (s.toList.dropWhile isWhitespace).rdropWhile isWhitespace :=
  String.toList_ofList

/-- A text without white space at its ends is what trimming makes of it. -/
theorem dropWhile_trim (s : String) :
    (trim s).toList.dropWhile isWhitespace = (trim s).toList := by
  rw [toList_trim]
  have hpre : (s.toList.dropWhile isWhitespace).rdropWhile isWhitespace <+:
      s.toList.dropWhile isWhitespace := List.rdropWhile_prefix isWhitespace _
  obtain ⟨rest, hrest⟩ := hpre
  cases h : (s.toList.dropWhile isWhitespace).rdropWhile isWhitespace with
  | nil => rfl
  | cons c cs =>
    rw [h, List.cons_append] at hrest
    have hc : isWhitespace c = false := by
      have hidem := List.dropWhile_idempotent isWhitespace s.toList
      rw [← hrest, List.dropWhile_cons] at hidem
      by_contra hws
      rw [Bool.not_eq_false] at hws
      rw [if_pos hws] at hidem
      have hlen := (List.dropWhile_suffix (l := cs ++ rest) isWhitespace).length_le
      rw [hidem] at hlen
      simp only [List.length_append, List.length_cons] at hlen
      omega
    simp [hc]

@[simp] theorem trim_trim (s : String) : trim (trim s) = trim s := by
  apply String.toList_injective
  rw [toList_trim, dropWhile_trim, toList_trim]
  exact List.rdropWhile_idempotent isWhitespace _

/-- Trimming cuts white space off both ends. -/
theorem exists_toList_eq_trim (s : String) : ∃ pre post, (∀ c ∈ pre, isWhitespace c = true) ∧
    (∀ c ∈ post, isWhitespace c = true) ∧ s.toList = pre ++ (trim s).toList ++ post := by
  refine ⟨s.toList.takeWhile isWhitespace,
    ((s.toList.dropWhile isWhitespace).reverse.takeWhile isWhitespace).reverse, ?_, ?_, ?_⟩
  · exact fun c hc => List.mem_takeWhile_imp hc
  · exact fun c hc => List.mem_takeWhile_imp (List.mem_reverse.1 hc)
  · rw [toList_trim, List.rdropWhile, List.append_assoc, ← List.reverse_append,
      List.takeWhile_append_dropWhile, List.reverse_reverse, List.takeWhile_append_dropWhile]

theorem length_trim_le (s : String) : (trim s).toList.length ≤ s.toList.length := by
  obtain ⟨pre, post, -, -, h⟩ := exists_toList_eq_trim s
  rw [h, List.length_append, List.length_append]
  omega

theorem beq_of_whitespace {c d : Char} (hc : isWhitespace c = false) (hd : isWhitespace d = true) :
    (c == d) = false := by
  rw [beq_eq_false_iff_ne]
  rintro rfl
  rw [hc] at hd
  cases hd

section Contains

variable {p : List Char}

theorem isPrefixOf_append_whitespace (hp : ∀ c ∈ p, isWhitespace c = false) (cs : List Char)
    {post : List Char} (hpost : ∀ c ∈ post, isWhitespace c = true) :
    p.isPrefixOf (cs ++ post) = p.isPrefixOf cs := by
  induction p generalizing cs with
  | nil => simp
  | cons d p ih =>
    have hd : isWhitespace d = false := hp d (List.mem_cons_self ..)
    cases cs with
    | nil =>
      cases post with
      | nil => rfl
      | cons e post =>
        have he : isWhitespace e = true := hpost e (List.mem_cons_self ..)
        simp [List.isPrefixOf, beq_of_whitespace hd he]
    | cons c cs =>
      simp only [List.cons_append, List.isPrefixOf]
      rw [ih (fun c hc => hp c (List.mem_cons_of_mem _ hc))]

theorem containsList_append_whitespace (hne : p ≠ []) (hp : ∀ c ∈ p, isWhitespace c = false)
    (cs : List Char) {post : List Char} (hpost : ∀ c ∈ post, isWhitespace c = true) :
    containsList p (cs ++ post) = containsList p cs := by
  induction cs with
  | nil =>
    induction post with
    | nil => rfl
    | cons e post ih =>
      have hpre := isPrefixOf_append_whitespace hp [] hpost
      have hnil : p.isPrefixOf ([] : List Char) = false := by
        cases p with
        | nil => exact absurd rfl hne
        | cons d p => rfl
      rw [List.nil_append, hnil] at hpre
      have hrest := ih fun c hc => hpost c (List.mem_cons_of_mem _ hc)
      rw [List.nil_append] at hrest
      show (p.isPrefixOf (e :: post) || containsList p post) = containsList p []
      rw [hpre, Bool.false_or, hrest]
  | cons c cs ih =>
    rw [List.cons_append, containsList, containsList, ih, ← List.cons_append,
      isPrefixOf_append_whitespace hp _ hpost]

theorem containsList_whitespace_append (hne : p ≠ []) (hp : ∀ c ∈ p, isWhitespace c = false)
    {pre : List Char} (hpre : ∀ c ∈ pre, isWhitespace c = true) (cs : List Char) :
    containsList p (pre ++ cs) = containsList p cs := by
  obtain ⟨d, p, rfl⟩ := List.exists_cons_of_ne_nil hne
  have hd : isWhitespace d = false := hp d (List.mem_cons_self ..)
  induction pre with
  | nil => rfl
  | cons e pre ih =>
    have he : isWhitespace e = true := hpre e (List.mem_cons_self ..)
    have hrest := ih fun c hc => hpre c (List.mem_cons_of_mem _ hc)
    rw [List.cons_append, containsList, hrest]
    simp [List.isPrefixOf, beq_of_whitespace hd he]

end Contains

/-- White space around a text contains nothing but white space. -/
theorem contains_trim {s p : String} (hne : p.toList ≠ [])
    (hp : ∀ c ∈ p.toList, isWhitespace c = false) : contains (trim s) p = contains s p := by
  obtain ⟨pre, post, hpre, hpost, h⟩ := exists_toList_eq_trim s
  rw [contains, contains, h, containsList_append_whitespace hne hp _ hpost,
    containsList_whitespace_append hne hp hpre]

theorem trim_of_isBlank {s : String} (h : isBlank s = true) : trim s = "" := by
  have hall : ∀ c ∈ s.toList, isWhitespace c = true := by simpa [isBlank] using h
  apply String.toList_injective
  rw [toList_trim, List.dropWhile_eq_nil_iff.2 hall]
  rfl

theorem isBlank_iff {s : String} : isBlank s = true ↔ ∀ c ∈ s.toList, isWhitespace c = true := by
  simp [isBlank]

theorem isBlank_append (s t : String) : isBlank (s ++ t) = (isBlank s && isBlank t) := by
  simp [isBlank]

theorem trim_eq_empty_iff {s : String} : trim s = "" ↔ isBlank s = true := by
  refine ⟨fun h => ?_, trim_of_isBlank⟩
  obtain ⟨pre, post, hpre, hpost, heq⟩ := exists_toList_eq_trim s
  rw [h] at heq
  rw [isBlank_iff, heq]
  intro c hc
  simp only [String.toList_empty, List.append_nil, List.mem_append] at hc
  exact hc.elim (hpre c) (hpost c)

/-- White space before a text is not seen once the text is trimmed. -/
theorem trim_of_toList_eq_append {s t : String} {pre : List Char}
    (hpre : ∀ c ∈ pre, isWhitespace c = true) (h : s.toList = pre ++ t.toList) :
    trim s = trim t := by
  apply String.toList_injective
  rw [toList_trim, toList_trim, h, List.dropWhile_append_of_pos hpre]

example : splitWhitespace "flow  main step x " = ["flow", "main", "step", "x"] := by decide

example : trim " a b\n" = "a b" := by decide

end Lib.Text
