import XpressClaw.Lib.Utf8
import XpressClaw.Conversations.Store

/-!
# Which mentions a message is searched for

`parse_mentions` looks for `@[`, jumps to the next `]` and goes on behind it, all by byte
offsets.  Here is the loop with its offsets, and what it finds.

* `parseMentionsFrom_eq` — the loop ends, and every offset it slices at is one between
  characters; it finds what `parseMentions` says.
* `Closed` — every `@[` of a text has a `]` behind it.
* `mem_mentionsIn_iff` — the scan finds what stands in brackets behind a closed text; an
  `@[` that is left open swallows what comes up to the next `]`.
* `parse_mentions_recognizes` — a mention is heard exactly when it stands behind a closed
  text, and the agents that a message is routed to are the ones so mentioned.
-/

namespace XpressClaw.Conversations

open Lib

/-! ## The loop -/

/-- The parts between the brackets, if there are three of them. -/
def mentionOf (inner : List Char) : Option (String × String × String) :=
  match Utf8.splitn ':' 3 inner with
  | [kind, id, name] => some (String.ofList kind, String.ofList id, String.ofList name)
  | _ => none

/-- The loop of `parse_mentions` from a byte offset on.  Nothing where a slice panics, and
nothing when the rounds do not suffice. -/
def parseMentionsFrom (content : List Char) :
    ℕ → ℕ → Option (List (String × String × String))
  | 0, _ => none
  | rounds + 1, start => do
      let rest ← Utf8.sliceFrom content start
      match Utf8.find ['@', '['] rest with
      | none => some []
      | some pos =>
          let absPos := start + pos
          let opened ← Utf8.sliceFrom content absPos
          match Utf8.find [']'] opened with
          | none => some []
          | some close =>
              let inner ← Utf8.slice content (absPos + 2) (absPos + close)
              let later ← parseMentionsFrom content rounds (absPos + close + 1)
              some ((mentionOf inner).toList ++ later)

/-! ## The scan, mention by mention -/

/-- What the scan finds in a text. -/
def mentionsIn (cs : List Char) : List (String × String × String) :=
  parseMentionsAux cs.length cs

section Scan

variable {c : Char} {cs inner rest : List Char}

/-- One round of the scan at an opening. -/
theorem parseMentionsAux_open (fuel : ℕ) (h : ']' ∉ inner) :
    parseMentionsAux (fuel + 1) ('@' :: '[' :: (inner ++ ']' :: rest)) =
      (mentionOf inner).toList ++ parseMentionsAux fuel rest := by
  simp only [parseMentionsAux, List.head?_cons, List.tail_cons, and_self, if_true,
    Utf8.takeWhile_sep h, Utf8.dropWhile_sep h]
  rcases Utf8.eq_or_exists_sep ':' inner with hnone | ⟨kind, r, hkind, rfl⟩
  · simp [mentionOf, Utf8.splitn_of_notMem 2 hnone, List.count_eq_zero.2 hnone]
  · have hcount : kind.count ':' = 0 := List.count_eq_zero.2 hkind
    rw [mentionOf, Utf8.splitn_sep 1 hkind, Utf8.takeWhile_sep hkind]
    rcases Utf8.eq_or_exists_sep ':' r with hone | ⟨id, name, hid, rfl⟩
    · simp [Utf8.splitn_of_notMem 1 hone, List.count_eq_zero.2 hone, hcount]
    · have hdrop : (kind ++ ':' :: (id ++ ':' :: name)).drop (kind.length + 1) =
          id ++ ':' :: name := by
        simp
      have hname : (kind ++ ':' :: (id ++ ':' :: name)).drop (kind.length + id.length + 2) =
          name := by
        have hlen : kind.length + id.length + 2 = (kind ++ ':' :: (id ++ [':'])).length := by
          simp only [List.length_append, List.length_cons, List.length_nil]
          omega
        rw [hlen, show kind ++ ':' :: (id ++ ':' :: name) = (kind ++ ':' :: (id ++ [':'])) ++ name
          by simp, List.drop_left]
      rw [Utf8.splitn_sep 0 hid, hdrop, Utf8.takeWhile_sep hid, hname]
      simp [Utf8.splitn, hcount, List.count_eq_zero.2 hid]

theorem parseMentionsAux_unclosed (fuel : ℕ) (h : ']' ∉ cs) :
    parseMentionsAux (fuel + 1) ('@' :: '[' :: cs) = [] := by
  simp only [parseMentionsAux, List.head?_cons, List.tail_cons, and_self, if_true,
    Utf8.dropWhile_of_notMem h]

theorem eq_open_or (c : Char) (cs : List Char) :
    (∃ r, c :: cs = '@' :: '[' :: r) ∨ ¬ (c = '@' ∧ cs.head? = some '[') := by
  by_cases h : c = '@' ∧ cs.head? = some '['
  · obtain ⟨rfl, hhead⟩ := h
    obtain ⟨r, rfl⟩ := List.head?_eq_some_iff.1 hhead
    exact .inl ⟨r, rfl⟩
  · exact .inr h

/-- The scan does not depend on the fuel once there is one unit a character. -/
theorem parseMentionsAux_fuel {fuel : ℕ} (h : cs.length ≤ fuel) :
    parseMentionsAux fuel cs = mentionsIn cs := by
  induction hn : cs.length using Nat.strong_induction_on generalizing cs fuel with
  | _ n ih =>
    subst hn
    cases cs with
    | nil => cases fuel <;> rfl
    | cons c cs =>
      obtain ⟨fuel, rfl⟩ : ∃ m, fuel = m + 1 := ⟨fuel - 1, by
        rw [List.length_cons] at h
        omega⟩
      rw [mentionsIn, List.length_cons] at *
      rcases eq_open_or c cs with ⟨r, hr⟩ | hplain
      · obtain ⟨rfl, rfl⟩ := List.cons.inj hr
        rw [List.length_cons] at *
        rcases Utf8.eq_or_exists_sep ']' r with hnone | ⟨inner, rest, hinner, rfl⟩
        · rw [parseMentionsAux_unclosed _ hnone, parseMentionsAux_unclosed _ hnone]
        · rw [List.length_append, List.length_cons] at *
          rw [parseMentionsAux_open _ hinner, parseMentionsAux_open _ hinner,
            ih rest.length (by omega) (by omega) rfl, ih rest.length (by omega) (by omega) rfl]
      · rw [parseMentionsAux, parseMentionsAux, if_neg hplain, if_neg hplain,
          ih cs.length (by omega) (by omega) rfl, mentionsIn]

@[simp] theorem mentionsIn_nil : mentionsIn [] = [] := rfl

theorem mentionsIn_open (h : ']' ∉ inner) (rest : List Char) :
    mentionsIn ('@' :: '[' :: (inner ++ ']' :: rest)) =
      (mentionOf inner).toList ++ mentionsIn rest := by
  rw [mentionsIn, List.length_cons, parseMentionsAux_open _ h, parseMentionsAux_fuel]
  simp only [List.length_cons, List.length_append]
  omega

theorem mentionsIn_unclosed (h : ']' ∉ cs) : mentionsIn ('@' :: '[' :: cs) = [] := by
  rw [mentionsIn, List.length_cons, parseMentionsAux_unclosed _ h]

theorem mentionsIn_plain (h : ¬ (c = '@' ∧ cs.head? = some '[')) :
    mentionsIn (c :: cs) = mentionsIn cs := by
  rw [mentionsIn, List.length_cons, parseMentionsAux, if_neg h, mentionsIn]

/-- The scan passes over what stands before the first opening. -/
theorem mentionsIn_starts (a b : List Char) (h : Utf8.Starts ['@', '['] a b) :
    mentionsIn (a ++ '@' :: '[' :: b) = mentionsIn ('@' :: '[' :: b) := by
  induction a with
  | nil => rfl
  | cons c a ih =>
    have hplain : ¬ (c = '@' ∧ (a ++ '@' :: '[' :: b).head? = some '[') := by
      rintro ⟨rfl, hhead⟩
      obtain ⟨r, hr⟩ := List.head?_eq_some_iff.1 hhead
      have hle := h [] r (by simpa using hr)
      simp at hle
    rw [List.cons_append, mentionsIn_plain hplain, ih]
    intro x y hxy
    simpa using h (c :: x) y (by simpa using hxy)

theorem mentionsIn_of_find (h : Utf8.find ['@', '['] cs = none) : mentionsIn cs = [] := by
  induction cs with
  | nil => rfl
  | cons c cs ih =>
    rcases eq_open_or c cs with ⟨r, hr⟩ | hplain
    · exact absurd hr (Utf8.find_eq_none h [] r)
    · rw [Utf8.find] at h
      split at h
      next => cases h
      next => rw [mentionsIn_plain hplain, ih (Option.map_eq_none_iff.1 h)]

theorem slice_inner (a inner rest : List Char) :
    Utf8.slice (a ++ '@' :: '[' :: (inner ++ ']' :: rest)) (Utf8.byteLen a + 2)
      (Utf8.byteLen a + Utf8.byteLen ('@' :: '[' :: inner)) = some inner := by
  have hcut := Utf8.slice_append (a ++ ['@', '[']) inner (']' :: rest)
  have htwo : Utf8.byteLen ['@', '['] = 2 := by decide
  have hlen : Utf8.byteLen ('@' :: '[' :: inner) = 2 + Utf8.byteLen inner := by
    rw [← htwo, ← Utf8.byteLen_append]
    rfl
  rw [Utf8.byteLen_append, htwo] at hcut
  rw [hlen, ← Nat.add_assoc]
  simpa using hcut

theorem byteLen_closed (a inner : List Char) :
    Utf8.byteLen a + Utf8.byteLen ('@' :: '[' :: inner) + 1 =
      Utf8.byteLen (a ++ '@' :: '[' :: (inner ++ [']'])) := by
  have hone : Utf8.byteLen [']'] = 1 := by decide
  rw [← List.cons_append, ← List.cons_append, Utf8.byteLen_append, Utf8.byteLen_append _ [']'],
    hone, Nat.add_assoc]

/-- The loop of the code at an offset between two characters.  Each round starts behind
the `]` of the round before. -/
theorem parseMentionsFrom_byteLen {rounds : ℕ} (a cs : List Char) (h : cs.length < rounds) :
    parseMentionsFrom (a ++ cs) rounds (Utf8.byteLen a) = some (mentionsIn cs) := by
  induction rounds generalizing a cs with
  | zero => omega
  | succ rounds ih =>
    rw [parseMentionsFrom, Utf8.sliceFrom_append]
    simp only [Option.bind_eq_bind, Option.bind_some]
    cases hopen : Utf8.find ['@', '['] cs with
    | none => simp [mentionsIn_of_find hopen]
    | some pos =>
      obtain ⟨b, r, rfl, rfl, hstarts⟩ := Utf8.find_eq_some hopen
      have htext : a ++ (b ++ (['@', '['] ++ r)) = (a ++ b) ++ '@' :: '[' :: r := by simp
      have hscan : mentionsIn (b ++ (['@', '['] ++ r)) = mentionsIn ('@' :: '[' :: r) :=
        mentionsIn_starts b r hstarts
      simp only [← Utf8.byteLen_append, htext, Utf8.sliceFrom_append, Option.bind_some, hscan]
      rcases Utf8.eq_or_exists_sep ']' r with hnone | ⟨inner, rest, hinner, rfl⟩
      · have hclose : Utf8.find [']'] ('@' :: '[' :: r) = none :=
          Utf8.find_singleton_of_notMem (by simp [hnone])
        simp [hclose, mentionsIn_unclosed hnone]
      · have hclose : Utf8.find [']'] ('@' :: '[' :: (inner ++ ']' :: rest)) =
            some (Utf8.byteLen ('@' :: '[' :: inner)) := by
          rw [← List.cons_append, ← List.cons_append]
          exact Utf8.find_singleton (by simp [hinner]) rest
        have hlater := ih (a ++ b ++ '@' :: '[' :: (inner ++ [']'])) rest (by
          simp only [List.length_append, List.length_cons] at h
          omega)
        rw [List.append_assoc (a ++ b), List.cons_append, List.cons_append,
          List.append_assoc inner, List.singleton_append] at hlater
        simp only [hclose, slice_inner, byteLen_closed, hlater, Option.bind_some,
          mentionsIn_open hinner]

theorem parseMentionsFrom_eq (content : String) :
    parseMentionsFrom content.toList (content.toList.length + 1) 0 =
      some (parseMentions content) :=
  parseMentionsFrom_byteLen [] content.toList (Nat.lt_succ_self _)

end Scan

/-! ## Mentions in a text -/

/-- A mention of an agent, as the composer of a message writes it. -/
structure AgentMention where
  id : String
  name : String
  id_plain : ':' ∉ id.toList ∧ ']' ∉ id.toList
  name_plain : ']' ∉ name.toList

/-- `@[AGENT:id:name]`. -/
def AgentMention.text (m : AgentMention) : String :=
  "@[AGENT:" ++ m.id ++ ":" ++ m.name ++ "]"

/-- What the scan is to make of it. -/
def AgentMention.entry (m : AgentMention) : String × String × String := ("AGENT", m.id, m.name)

/-- Every `@[` of the text has a `]` behind it. -/
def Closed (cs : List Char) : Prop := ∀ y, '@' :: '[' :: y <:+ cs → ']' ∈ y

/-- The mention stands in the text behind a part that is closed. -/
def AgentMention.Stands (m : AgentMention) (content : String) : Prop :=
  ∃ before after, content = before ++ m.text ++ after ∧ Closed before.toList

section Closed

variable {c : Char} {cs inner rest : List Char}

instance : DecidablePred Closed := fun cs =>
  decidable_of_iff (∀ t ∈ cs.tails, t.take 2 = ['@', '['] → ']' ∈ t.drop 2) <| by
    constructor
    · intro h y hy
      simpa using h _ ((List.mem_tails _ _).2 hy) (by simp)
    · intro h t ht htake
      apply h
      have hsplit := List.take_append_drop 2 t
      rw [htake] at hsplit
      rw [List.mem_tails, ← hsplit] at ht
      simpa using ht

theorem Closed.suffix (h : Closed cs) (hs : rest <:+ cs) : Closed rest :=
  fun y hy => h y (hy.trans hs)

theorem closed_nil : Closed [] := by
  intro y hy
  simpa using hy.length_le

theorem closed_plain (hc : ¬ (c = '@' ∧ cs.head? = some '[')) (h : Closed cs) :
    Closed (c :: cs) := by
  intro y hy
  rcases List.suffix_cons_iff.1 hy with heq | hsuffix
  · obtain ⟨rfl, rfl⟩ := List.cons.inj heq
    simp at hc
  · exact h y hsuffix

theorem closed_open (h : Closed rest) : Closed ('@' :: '[' :: (inner ++ ']' :: rest)) := by
  intro y hy
  have hclose : ']' :: rest <:+ '@' :: '[' :: (inner ++ ']' :: rest) :=
    ⟨'@' :: '[' :: inner, by simp⟩
  rcases List.suffix_or_suffix_of_suffix hy hclose with hbehind | hbefore
  · -- the opening stands behind the bracket
    rcases List.suffix_cons_iff.1 hbehind with heq | hsuffix
    · simp at heq
    · exact h y hsuffix
  · have hmem : ']' ∈ '@' :: '[' :: y := hbefore.subset (List.mem_cons_self ..)
    simpa using hmem

/-- The scan behind a closed text is a scan of its own. -/
theorem mentionsIn_append (h : Closed cs) (rest : List Char) :
    mentionsIn (cs ++ '@' :: '[' :: rest) = mentionsIn cs ++ mentionsIn ('@' :: '[' :: rest) := by
  induction hn : cs.length using Nat.strong_induction_on generalizing cs with
  | _ n ih =>
    subst hn
    cases cs with
    | nil => rfl
    | cons c cs =>
      rcases eq_open_or c cs with ⟨r, hr⟩ | hplain
      · rw [hr] at h ⊢
        obtain ⟨inner, later, hinner, rfl⟩ :=
          (Utf8.eq_or_exists_sep ']' r).resolve_left fun hn => hn (h r (List.suffix_refl _))
        have hlater : Closed later :=
          h.suffix ⟨'@' :: '[' :: (inner ++ [']']), by simp⟩
        have hlen : later.length < (c :: cs).length := by
          rw [hr]
          simp only [List.length_cons, List.length_append]
          omega
        have happ : '@' :: '[' :: (inner ++ ']' :: later) ++ '@' :: '[' :: rest =
            '@' :: '[' :: (inner ++ ']' :: (later ++ '@' :: '[' :: rest)) := by simp
        rw [happ, mentionsIn_open hinner, mentionsIn_open hinner,
          ih later.length hlen hlater rfl, List.append_assoc]
      · have hstill : ¬ (c = '@' ∧ (cs ++ '@' :: '[' :: rest).head? = some '[') := by
          rintro ⟨rfl, hhead⟩
          cases cs with
          | nil => simp at hhead
          | cons d cs => simp_all
        rw [List.cons_append, mentionsIn_plain hstill, mentionsIn_plain hplain,
          ih cs.length (by simp) (h.suffix (List.suffix_cons c cs)) rfl]

/-- The scan finds what stands in brackets behind a closed text. -/
theorem mem_mentionsIn_iff {e : String × String × String} : e ∈ mentionsIn cs ↔
    ∃ before inner after, cs = before ++ '@' :: '[' :: (inner ++ ']' :: after) ∧
      Closed before ∧ ']' ∉ inner ∧ mentionOf inner = some e := by
  constructor
  · induction hn : cs.length using Nat.strong_induction_on generalizing cs with
    | _ n ih =>
      subst hn
      intro he
      cases cs with
      | nil => simp at he
      | cons c cs =>
        rcases eq_open_or c cs with ⟨r, hr⟩ | hplain
        · rw [hr] at he ⊢
          rcases Utf8.eq_or_exists_sep ']' r with hnone | ⟨inner, rest, hinner, rfl⟩
          · simp [mentionsIn_unclosed hnone] at he
          · rw [mentionsIn_open hinner, List.mem_append, Option.mem_toList] at he
            rcases he with hhere | hlater
            · exact ⟨[], inner, rest, rfl, closed_nil, hinner, hhere⟩
            · have hlen : rest.length < (c :: cs).length := by
                rw [hr]
                simp only [List.length_cons, List.length_append]
                omega
              obtain ⟨before, found, after, rfl, hclosed, hfound⟩ := ih _ hlen rfl hlater
              exact ⟨'@' :: '[' :: (inner ++ ']' :: before), found, after, by simp,
                closed_open hclosed, hfound⟩
        · rw [mentionsIn_plain hplain] at he
          obtain ⟨before, found, after, rfl, hclosed, hfound⟩ := ih _ (by simp) rfl he
          refine ⟨c :: before, found, after, rfl, closed_plain ?_ hclosed, hfound⟩
          rintro ⟨rfl, hhead⟩
          obtain ⟨r, rfl⟩ := List.head?_eq_some_iff.1 hhead
          simp at hplain
  · rintro ⟨before, inner, after, rfl, hclosed, hinner, he⟩
    rw [mentionsIn_append hclosed, mentionsIn_open hinner, he]
    simp

/-- Three parts are the text between the colons, and only the last may have one. -/
theorem mentionOf_eq_some_iff {kind id name : String} :
    mentionOf inner = some (kind, id, name) ↔ ':' ∉ kind.toList ∧ ':' ∉ id.toList ∧
      inner = kind.toList ++ ':' :: (id.toList ++ ':' :: name.toList) := by
  constructor
  · intro h
    rcases Utf8.eq_or_exists_sep ':' inner with hnone | ⟨k, r, hk, rfl⟩
    · simp [mentionOf, Utf8.splitn_of_notMem 2 hnone] at h
    · rw [mentionOf, Utf8.splitn_sep 1 hk] at h
      rcases Utf8.eq_or_exists_sep ':' r with hone | ⟨i, n, hi, rfl⟩
      · simp [Utf8.splitn_of_notMem 1 hone] at h
      · rw [Utf8.splitn_sep 0 hi] at h
        simp only [Utf8.splitn, Option.some.injEq, Prod.mk.injEq] at h
        obtain ⟨rfl, rfl, rfl⟩ := h
        simp [hk, hi]
  · rintro ⟨hkind, hid, rfl⟩
    rw [mentionOf, Utf8.splitn_sep 1 hkind, Utf8.splitn_sep 0 hid]
    simp [Utf8.splitn]

end Closed

namespace AgentMention

variable (m : AgentMention)

/-- What stands between the brackets. -/
def inner : List Char := "AGENT".toList ++ ':' :: (m.id.toList ++ ':' :: m.name.toList)

theorem inner_eq : m.inner = "AGENT".toList ++ ':' :: (m.id.toList ++ ':' :: m.name.toList) := by
  -- unfolding it by its equation would evaluate the word
  delta inner
  rfl

theorem toList_text : m.text.toList = '@' :: '[' :: (m.inner ++ [']']) := by
  simp [text, inner_eq, String.toList_append]

theorem bracket_notMem_inner : ']' ∉ m.inner := by
  simp [inner_eq, m.id_plain.2, m.name_plain]

theorem mentionOf_inner (cs : List Char) : mentionOf cs = some m.entry ↔ cs = m.inner := by
  rw [entry, mentionOf_eq_some_iff, inner_eq]
  simp [m.id_plain.1]

variable {m} {content : String}

theorem stands_iff : m.Stands content ↔ ∃ before after,
    content.toList = before ++ '@' :: '[' :: (m.inner ++ ']' :: after) ∧ Closed before := by
  constructor
  · rintro ⟨before, after, rfl, hclosed⟩
    exact ⟨before.toList, after.toList, by simp [String.toList_append, toList_text], hclosed⟩
  · rintro ⟨before, after, h, hclosed⟩
    refine ⟨String.ofList before, String.ofList after, ?_, by simpa using hclosed⟩
    apply String.toList_injective
    simp [String.toList_append, toList_text, h]

theorem mem_parseMentions_iff : m.entry ∈ parseMentions content ↔ m.Stands content := by
  show m.entry ∈ mentionsIn content.toList ↔ _
  rw [mem_mentionsIn_iff, stands_iff]
  constructor
  · rintro ⟨before, inner, after, h, hclosed, -, he⟩
    rw [mentionOf_inner] at he
    exact ⟨before, after, by rw [h, he], hclosed⟩
  · rintro ⟨before, after, h, hclosed⟩
    exact ⟨before, m.inner, after, h, hclosed, m.bracket_notMem_inner, (m.mentionOf_inner _).2 rfl⟩

end AgentMention

/-- The agents of a message are the ones whose mention stands in it. -/
theorem mem_agentMentions_iff {content agentId : String} :
    agentId ∈ agentMentions content ↔
      ∃ m : AgentMention, m.Stands content ∧ m.id = agentId := by
  rw [agentMentions, List.mem_filterMap]
  constructor
  · rintro ⟨⟨kind, id, name⟩, he, hsome⟩
    split at hsome
    next hkind =>
      obtain rfl : kind = "AGENT" := hkind
      obtain rfl : id = agentId := Option.some.inj hsome
      obtain ⟨before, inner, after, -, -, hinner, hparts⟩ := mem_mentionsIn_iff.1 he
      obtain ⟨-, hid, rfl⟩ := mentionOf_eq_some_iff.1 hparts
      simp only [List.mem_append, List.mem_cons, not_or] at hinner
      exact ⟨⟨id, name, ⟨hid, hinner.2.2.1⟩, hinner.2.2.2.2⟩,
        AgentMention.mem_parseMentions_iff.1 he, rfl⟩
    next => cases hsome
  · rintro ⟨m, hstands, rfl⟩
    exact ⟨m.entry, AgentMention.mem_parseMentions_iff.2 hstands, if_pos rfl⟩

/-- The scan of the text ends without slicing inside a character and finds the mention, and
a message with the text goes to the mentioned agents and to no other. -/
structure AgentMention.Heard (m : AgentMention) (content : String) : Prop where
  scanned : parseMentionsFrom content.toList (content.toList.length + 1) 0 =
    some (parseMentions content)
  found : m.entry ∈ parseMentions content
  routed : ∀ senderType senderId agentId,
    messageTargetsAgent senderType senderId agentId (agentMentions content) none = true ↔
      agentId ≠ senderId ∧ ∃ m' : AgentMention, m'.Stands content ∧ m'.id = agentId

/-- **A mention is heard exactly when no `@[` before it is left open.**  In every text
around it, the mention is found, and the message goes to the mentioned agents instead of to
everybody, exactly when some occurrence of the mention has a part of the text before it in
which every `@[` has its `]`. -/
theorem parse_mentions_recognizes (before after : String) (m : AgentMention) :
    m.Heard (before ++ m.text ++ after) ↔ m.Stands (before ++ m.text ++ after) := by
  generalize before ++ m.text ++ after = content
  constructor
  · intro hheard
    exact AgentMention.mem_parseMentions_iff.1 hheard.found
  · intro hstands
    refine ⟨parseMentionsFrom_eq content, AgentMention.mem_parseMentions_iff.2 hstands, ?_⟩
    intro senderType senderId agentId
    have hmem : m.id ∈ agentMentions content := mem_agentMentions_iff.2 ⟨m, hstands, rfl⟩
    have hne : (agentMentions content).isEmpty = false := by
      rw [List.isEmpty_eq_false_iff]
      exact List.ne_nil_of_mem hmem
    rw [messageTargetsAgent, ← mem_agentMentions_iff]
    split
    next heq => simp [heq]
    next hother => simp [hne, hother]

/-- A mention of the agent `atlas`. -/
def atlasMention : AgentMention where
  id := "atlas"
  name := "Atlas"
  id_plain := by decide +kernel
  name_plain := by decide +kernel

/-- An opening that nobody closed takes the mention behind it along, and the message goes to
an agent it does not mention. -/
theorem open_bracket_swallows_mention :
    ¬ atlasMention.Heard ("use @[ here, " ++ atlasMention.text ++ "!") ∧
      messageTargetsAgent "user" "local" "hermes"
        (agentMentions ("use @[ here, " ++ atlasMention.text ++ "!")) none = true := by
  refine ⟨fun hheard => absurd hheard.found ?_, by decide +kernel⟩
  decide +kernel

end XpressClaw.Conversations
