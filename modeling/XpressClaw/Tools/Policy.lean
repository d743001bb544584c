import Mathlib.Data.List.TakeWhile
import XpressClaw.Lib.Bytes
import XpressClaw.Lib.Glob

/-!
# Tool policies

The rules of `tools/policy.rs` and the matcher behind them, which walks over the bytes of the
pattern and of the tool's name.

* `Cursor`, `Cursor.next`, `scan` — the loop of `glob_match`; `scan_terminates` says that it
  comes to an end.
* `InLanguage`, `Decides` — what a pattern and a rule list are to mean.
* `scan_iff` — the matcher is right about bytes as long as a star of the pattern never meets
  a star of the name, which it would take for the same letter.
* `policy_exact_iff` — the names that every rule list treats as it says.
-/

namespace XpressClaw.Tools

open Lib Lib.Glob

/-! ## The rules -/

/-- What happens to a call that a rule matches. -/
inductive PolicyAction where
  | allow
  | deny
  | requireApproval
  deriving DecidableEq, Repr

/-- How an approval is obtained. -/
inductive ApprovalMode where
  | manual
  | script (command : String)
  | agent (agentId : String)
  deriving DecidableEq, Repr

structure ToolPolicyRule where
  pattern : String
  action : PolicyAction
  approval : Option ApprovalMode := none
  deriving DecidableEq, Repr

inductive PolicyDecision where
  | allow
  | deny (reason : String)
  | needsApproval (mode : ApprovalMode) (matchedPattern : String)
  deriving DecidableEq, Repr

/-- The decision of a rule that matched. -/
def ToolPolicyRule.decision (rule : ToolPolicyRule) (toolName : String) : PolicyDecision :=
  match rule.action with
  | .allow => .allow
  | .deny =>
      .deny ("denied by policy: pattern '" ++ rule.pattern ++ "' blocks tool '" ++ toolName ++ "'")
  | .requireApproval => .needsApproval (rule.approval.getD .manual) rule.pattern

/-! ## The matcher -/

/-- `b'*'`. -/
def star : UInt8 := 42

/-- `b'?'`. -/
def question : UInt8 := 63

/-- The variables of the loop. -/
structure Cursor where
  pi : ℕ := 0
  ti : ℕ := 0
  starPi : Option ℕ := none
  starTi : ℕ := 0
  deriving DecidableEq, Repr

/-- One round of the loop at the byte `b` of the text; nothing where it returns false. -/
def Cursor.next (pat : List UInt8) (b : UInt8) (c : Cursor) : Option Cursor :=
  if pat[c.pi]? = some question ∨ pat[c.pi]? = some b then
    some { c with pi := c.pi + 1, ti := c.ti + 1 }
  else if pat[c.pi]? = some star then
    some { c with pi := c.pi + 1, starPi := some c.pi, starTi := c.ti }
  else
    c.starPi.map fun sp => { c with pi := sp + 1, ti := c.starTi + 1, starTi := c.starTi + 1 }

/-- The end of the loop: the rest of the pattern may only be stars. -/
def Cursor.finish (pat : List UInt8) (c : Cursor) : Bool :=
  c.pi + ((pat.drop c.pi).takeWhile (· == star)).length == pat.length

/-- The loop, for a number of rounds. -/
def scan (pat txt : List UInt8) : ℕ → Cursor → Option Bool
  | 0, _ => none
  | fuel + 1, c =>
      match txt[c.ti]? with
      | none => some (c.finish pat)
      | some b =>
          match c.next pat b with
          | none => some false
          | some c' => scan pat txt fuel c'

/-- What is left to do: a star has fewer and fewer places to come back to. -/
def Cursor.rank (pat txt : List UInt8) (c : Cursor) : ℕ :=
  (txt.length + 1 - c.starPi.elim 0 fun _ => c.starTi + 1) * (txt.length + pat.length + 1) +
    ((txt.length - c.ti) + (pat.length - c.pi))

/-- `glob_match`, on bytes. -/
def globBytes (pat txt : List UInt8) : Bool :=
  (scan pat txt (Cursor.rank pat txt {} + 1) {}).getD false

def globMatch (pattern text : String) : Bool :=
  globBytes (bytes pattern.toList) (bytes text.toList)

/-- `ToolPolicyEngine::evaluate`; the agent's id is only logged. -/
def evaluate : List ToolPolicyRule → String → String → PolicyDecision
  | [], _, _ => .allow
  | rule :: rules, toolName, agentId =>
      if globMatch rule.pattern toolName then rule.decision toolName
      else evaluate rules toolName agentId

/-! ## What it is to mean -/

/-- A character of a pattern. -/
def symbol (c : Char) : Token Char :=
  if c = '*' then .any else if c = '?' then .one else .lit c

/-- The name is in the language of the pattern. -/
def InLanguage (pattern name : String) : Prop := Matches (pattern.toList.map symbol) name.toList

/-- The first rule whose language contains the name decides, and without one it is allowed. -/
def Decides (rules : List ToolPolicyRule) (name : String) (d : PolicyDecision) : Prop :=
  (∃ before rule after, rules = before ++ rule :: after ∧
    (∀ r ∈ before, ¬ InLanguage r.pattern name) ∧ InLanguage rule.pattern name ∧
      d = rule.decision name) ∨
  ((∀ r ∈ rules, ¬ InLanguage r.pattern name) ∧ d = .allow)

/-- From some number of rounds on, the loop has returned `b`. -/
def Returns (pattern name : String) (b : Bool) : Prop :=
  ∃ n, ∀ fuel ≥ n, scan (bytes pattern.toList) (bytes name.toList) fuel {} = some b

/-! ## Termination -/

section Termination

variable {pat txt : List UInt8} {c c' : Cursor} {b : UInt8} {r : Bool} {n m : ℕ}

/-- The loop stays within the text, and its star behind it. -/
structure Cursor.Ordered (txt : List UInt8) (c : Cursor) : Prop where
  inside : c.ti ≤ txt.length
  behind : ∀ sp, c.starPi = some sp → c.starTi ≤ c.ti

/-- What a round does: it takes a byte, leaves a star behind, or returns to the last star. -/
theorem next_cases (h : c.next pat b = some c') :
    ((pat[c.pi]? = some question ∨ pat[c.pi]? = some b) ∧
      c' = { c with pi := c.pi + 1, ti := c.ti + 1 }) ∨
    (pat[c.pi]? = some star ∧ b ≠ star ∧
      c' = { c with pi := c.pi + 1, starPi := some c.pi, starTi := c.ti }) ∨
    (∃ sp, c.starPi = some sp ∧ ¬ (pat[c.pi]? = some question ∨ pat[c.pi]? = some b) ∧
      pat[c.pi]? ≠ some star ∧
      c' = { c with pi := sp + 1, ti := c.starTi + 1, starTi := c.starTi + 1 }) := by
  unfold Cursor.next at h
  split at h
  · rename_i hacc
    exact .inl ⟨hacc, (Option.some.inj h).symm⟩
  · rename_i hacc
    split at h
    · rename_i hstar
      refine .inr (.inl ⟨hstar, ?_, (Option.some.inj h).symm⟩)
      rintro rfl
      exact hacc (.inr hstar)
    · rename_i hstar
      obtain ⟨sp, hsp, rfl⟩ := Option.map_eq_some_iff.1 h
      exact .inr (.inr ⟨sp, hsp, hacc, hstar, rfl⟩)

theorem next_eq_none (h : c.next pat b = none) :
    ¬ (pat[c.pi]? = some question ∨ pat[c.pi]? = some b) ∧ pat[c.pi]? ≠ some star ∧
      c.starPi = none := by
  unfold Cursor.next at h
  split at h
  · cases h
  · rename_i hacc
    split at h
    · cases h
    · rename_i hstar
      exact ⟨hacc, hstar, Option.map_eq_none_iff.1 h⟩

theorem next_ordered (hti : c.ti < txt.length) (ho : c.Ordered txt)
    (h : c.next pat b = some c') : c'.Ordered txt := by
  rcases next_cases h with ⟨-, rfl⟩ | ⟨-, -, rfl⟩ | ⟨sp, hsp, -, -, rfl⟩
  · exact ⟨hti, fun sp hsp => Nat.le_succ_of_le (ho.behind sp hsp)⟩
  · exact ⟨ho.inside, fun _ _ => le_rfl⟩
  · have hle := ho.behind sp hsp
    exact ⟨by dsimp only; omega, fun _ _ => le_rfl⟩

theorem next_rank (hti : c.ti < txt.length) (ho : c.Ordered txt)
    (h : c.next pat b = some c') : c'.rank pat txt < c.rank pat txt := by
  have hlt {x : UInt8} (hx : pat[c.pi]? = some x) : c.pi < pat.length :=
    (List.getElem?_eq_some_iff.1 hx).1
  rcases next_cases h with ⟨hacc, rfl⟩ | ⟨hstar, -, rfl⟩ | ⟨sp, hsp, -, -, rfl⟩
  · have hpi : c.pi < pat.length := by
      rcases hacc with h | h
      · exact hlt h
      · exact hlt h
    unfold Cursor.rank
    dsimp only
    omega
  · have hpi := hlt hstar
    have hbehind : (txt.length + 1 - (c.ti + 1)) ≤
        txt.length + 1 - c.starPi.elim 0 fun _ => c.starTi + 1 := by
      cases hsp : c.starPi with
      | none => exact Nat.sub_le_sub_left (Nat.zero_le _) _
      | some sp => exact Nat.sub_le_sub_left (Nat.succ_le_succ (ho.behind sp hsp)) _
    have hmul := Nat.mul_le_mul_right (txt.length + pat.length + 1) hbehind
    unfold Cursor.rank
    simp only [Option.elim_some]
    omega
  · have hle := ho.behind sp hsp
    have hstep : (txt.length + 1 - (c.starTi + 1 + 1)) + 1 = txt.length + 1 - (c.starTi + 1) := by
      omega
    have hmul : (txt.length + 1 - (c.starTi + 1)) * (txt.length + pat.length + 1) =
        (txt.length + 1 - (c.starTi + 1 + 1)) * (txt.length + pat.length + 1) +
          (txt.length + pat.length + 1) := by
      rw [← hstep, Nat.succ_mul]
    unfold Cursor.rank
    simp only [hsp, Option.elim_some]
    omega

/-- More rounds change nothing. -/
theorem scan_mono (h : scan pat txt n c = some r) (hle : n ≤ m) : scan pat txt m c = some r := by
  induction n generalizing m c with
  | zero => cases h
  | succ n ih =>
    obtain ⟨m, rfl⟩ := Nat.exists_eq_add_of_le'
      (Nat.le_trans (Nat.succ_le_succ (Nat.zero_le n)) hle)
    have hle' := Nat.le_of_succ_le_succ hle
    rw [scan] at h ⊢
    split at h
    · exact h
    · split at h
      · exact h
      · exact ih h hle'

/-- The loop comes to an end. -/
theorem scan_terminates (ho : c.Ordered txt) (hn : c.rank pat txt < n) :
    ∃ r, scan pat txt n c = some r := by
  induction n generalizing c with
  | zero => exact absurd hn (Nat.not_lt_zero _)
  | succ n ih =>
    rw [scan]
    split
    · exact ⟨_, rfl⟩
    · rename_i b hb
      have hti := (List.getElem?_eq_some_iff.1 hb).1
      split
      · exact ⟨_, rfl⟩
      · rename_i c' hc'
        have hrank := next_rank hti ho hc'
        exact ih (next_ordered hti ho hc') (by omega)

theorem scan_globBytes (hn : Cursor.rank pat txt {} < n) :
    scan pat txt n {} = some (globBytes pat txt) := by
  have ho : Cursor.Ordered txt {} := ⟨Nat.zero_le _, fun sp hsp => by cases hsp⟩
  obtain ⟨r, hr⟩ : ∃ r, scan pat txt (Cursor.rank pat txt {} + 1) {} = some r :=
    scan_terminates ho (Nat.lt_succ_self _)
  rw [globBytes, hr, Option.getD_some]
  exact scan_mono hr hn

theorem globMatch_returns (pattern name : String) :
    Returns pattern name (globMatch pattern name) :=
  ⟨Cursor.rank (bytes pattern.toList) (bytes name.toList) {} + 1, fun _ hfuel =>
    scan_globBytes hfuel⟩

theorem globBytes_eq (h : scan pat txt n {} = some r) : globBytes pat txt = r := by
  have hmax := scan_mono h (Nat.le_max_left n (Cursor.rank pat txt {} + 1))
  rw [scan_globBytes (Nat.le_max_right _ _)] at hmax
  exact Option.some.inj hmax

end Termination

/-! ## The matcher on bytes -/

/-- A byte of a pattern. -/
def token (b : UInt8) : Token UInt8 :=
  if b = star then .any else if b = question then .one else .lit b

/-- The cursor stays within the pattern, and its star stands on a place of it. -/
structure Cursor.Placed (pat : List UInt8) (c : Cursor) : Prop where
  pi : c.pi ≤ pat.length
  starPi : ∀ sp, c.starPi = some sp → sp < pat.length

/-- Between the last star and the cursor the pattern has no star, and the text as many bytes. -/
def Cursor.Since (pat : List UInt8) (c : Cursor) : Prop :=
  ∀ sp, c.starPi = some sp → ∃ m, (pat.map token).drop (sp + 1) = m ++ (pat.map token).drop c.pi ∧
    StarFree m ∧ c.ti = c.starTi + m.length

/-- What can still match: the rest as it stands, or with more bytes for the last star. -/
def Cursor.Ahead (pat txt : List UInt8) (c : Cursor) : Prop :=
  Matches ((pat.map token).drop c.pi) (txt.drop c.ti) ∨
    ∃ sp, c.starPi = some sp ∧
      Matches (.any :: (pat.map token).drop (sp + 1)) (txt.drop (c.starTi + 1))

section Correctness

variable {pat txt : List UInt8} {c c' : Cursor} {b : UInt8} {r : Bool} {n : ℕ} {i : ℕ}
  {t : Token UInt8}

theorem question_ne_star : question ≠ star := by decide

theorem token_eq_any {x : UInt8} : token x = .any ↔ x = star := by
  unfold token
  split
  · simp [*]
  · split <;> simp [*, question_ne_star]

theorem token_accepts {x : UInt8} : (token x).Accepts b ↔ x ≠ star ∧ (x = question ∨ x = b) := by
  unfold token
  split
  · simp [*, Token.Accepts]
  · split <;> simp [*, Token.Accepts, question_ne_star]

theorem drop_tokens {x : UInt8} (h : pat[i]? = some x) :
    (pat.map token).drop i = token x :: (pat.map token).drop (i + 1) := by
  obtain ⟨hi, rfl⟩ := List.getElem?_eq_some_iff.1 h
  rw [List.drop_eq_getElem_cons (by simpa using hi), List.getElem_map]

/-- A place that neither is a star nor takes the byte matches nothing here. -/
theorem not_matches_of_blocked {xs : List UInt8}
    (hacc : ¬ (pat[i]? = some question ∨ pat[i]? = some b)) (hpat : pat[i]? ≠ some star) :
    ¬ Matches ((pat.map token).drop i) (b :: xs) := by
  rw [not_or] at hacc
  cases hx : pat[i]? with
  | none =>
    rw [List.getElem?_eq_none_iff] at hx
    rw [List.drop_eq_nil_of_le (by simpa using hx), matches_nil]
    exact List.cons_ne_nil b xs
  | some x =>
    rw [hx] at hacc hpat
    have hne : x ≠ star := fun h => hpat (congrArg some h)
    have htok : token x ≠ .any := fun h => hne (token_eq_any.1 h)
    rw [drop_tokens hx, matches_cons_cons htok, token_accepts]
    rintro ⟨⟨-, hq | hxb⟩, -⟩
    · exact hacc.1 (congrArg some hq)
    · exact hacc.2 (congrArg some hxb)

/-- What stands between the last star and the cursor is skipped by a match that gives the star
more bytes. -/
theorem Cursor.Since.skip (hs : c.Since pat) {sp : ℕ} (hsp : c.starPi = some sp)
    (h : Matches (.any :: (pat.map token).drop (sp + 1)) (txt.drop (c.starTi + 1))) :
    ∃ v, v <:+ txt.drop (c.ti + 1) ∧ Matches ((pat.map token).drop c.pi) v := by
  obtain ⟨m, hm, hfree, hti⟩ := hs sp hsp
  rw [hm] at h
  obtain ⟨v, hv, hp⟩ := skip_of_matches hfree h
  rw [List.drop_drop] at hv
  refine ⟨v, ?_, hp⟩
  have hidx : c.starTi + 1 + m.length = c.ti + 1 := by omega
  rwa [hidx] at hv

/-- **What a round preserves**: the invariant about the last star, and whether anything can
still match. -/
theorem next_ahead (hb : txt[c.ti]? = some b) (hstar : b ≠ star ∨ star ∉ pat) (hs : c.Since pat)
    (h : c.next pat b = some c') : c'.Since pat ∧ (c.Ahead pat txt ↔ c'.Ahead pat txt) := by
  obtain ⟨hti, hget⟩ := List.getElem?_eq_some_iff.1 hb
  have hdrop : txt.drop c.ti = b :: txt.drop (c.ti + 1) := by
    rw [List.drop_eq_getElem_cons hti, hget]
  rcases next_cases h with ⟨hacc, rfl⟩ | ⟨hpat, -, rfl⟩ | ⟨sp, hsp, hacc, hpat, rfl⟩
  · -- the byte is taken: the place is no star, and one star-free place longer
    obtain ⟨x, hx, hne, hxb⟩ : ∃ x, pat[c.pi]? = some x ∧ x ≠ star ∧ (x = question ∨ x = b) := by
      rcases hacc with hx | hx
      · exact ⟨question, hx, by decide, .inl rfl⟩
      · refine ⟨b, hx, ?_, .inr rfl⟩
        rcases hstar with hne | hnot
        · exact hne
        · rintro rfl
          exact hnot (List.mem_of_getElem? hx)
    have htok : token x ≠ .any := fun h => hne (token_eq_any.1 h)
    constructor
    · intro sp hsp
      obtain ⟨m, hm, hfree, hlen⟩ := hs sp hsp
      refine ⟨m ++ [token x], ?_, ?_, ?_⟩
      · rw [hm, drop_tokens hx, List.append_assoc]
        rfl
      · rintro t ht
        rcases List.mem_append.1 ht with ht | ht
        · exact hfree t ht
        · rw [List.mem_singleton.1 ht]
          exact htok
      · rw [List.length_append, List.length_singleton]
        dsimp only
        omega
    · unfold Cursor.Ahead
      rw [drop_tokens hx, hdrop, matches_cons_cons htok, token_accepts]
      simp [hne, hxb]
  · -- a new star: the old one cannot do better
    have htok : token star = .any := rfl
    constructor
    · intro sp hsp
      obtain rfl := Option.some.inj hsp
      exact ⟨[], rfl, by simp [StarFree], rfl⟩
    · have hany := matches_any_iff ((pat.map token).drop (c.pi + 1)) (txt.drop c.ti)
      rw [List.tail_drop] at hany
      unfold Cursor.Ahead
      rw [drop_tokens hpat, htok]
      constructor
      · rintro (hnow | ⟨sp, hsp, hlater⟩)
        · rcases hany.1 hnow with h | h
          · exact .inl h
          · exact .inr ⟨c.pi, rfl, h⟩
        · obtain ⟨v, hv, hp⟩ := hs.skip hsp hlater
          rw [drop_tokens hpat, htok] at hp
          exact .inr ⟨c.pi, rfl, matches_any_of_suffix hp hv⟩
      · rintro (hnow | ⟨sp, hsp, hlater⟩)
        · exact .inl (hany.2 (.inl hnow))
        · obtain rfl := Option.some.inj hsp
          exact .inl (hany.2 (.inr hlater))
  · -- no place takes the byte: only a longer star can help
    have hnot : ¬ Matches ((pat.map token).drop c.pi) (txt.drop c.ti) := by
      rw [hdrop]
      exact not_matches_of_blocked hacc hpat
    constructor
    · intro sp' hsp'
      obtain rfl := Option.some.inj (hsp.symm.trans hsp')
      exact ⟨[], rfl, by simp [StarFree], rfl⟩
    · have hany := matches_any_iff ((pat.map token).drop (sp + 1)) (txt.drop (c.starTi + 1))
      rw [List.tail_drop] at hany
      unfold Cursor.Ahead
      constructor
      · rintro (hnow | ⟨sp', hsp', hlater⟩)
        · exact absurd hnow hnot
        · obtain rfl := Option.some.inj (hsp.symm.trans hsp')
          rcases hany.1 hlater with h | h
          · exact .inl h
          · exact .inr ⟨sp, hsp, h⟩
      · rintro (hnow | ⟨sp', hsp', hlater⟩)
        · exact .inr ⟨sp, hsp, hany.2 (.inl hnow)⟩
        · obtain rfl := Option.some.inj (hsp.symm.trans hsp')
          exact .inr ⟨sp, hsp, hany.2 (.inr hlater)⟩

/-- Where the loop leaves off, the last star cannot help any more. -/
theorem finish_ahead (hs : c.Since pat) (hp : c.Placed pat) (htxt : txt[c.ti]? = none) :
    c.finish pat = true ↔ c.Ahead pat txt := by
  rw [List.getElem?_eq_none_iff] at htxt
  have hend : txt.drop c.ti = [] := List.drop_eq_nil_of_le htxt
  have hrest : c.finish pat = true ↔ Matches ((pat.map token).drop c.pi) [] := by
    have hlen := congrArg List.length (List.takeWhile_append_dropWhile (p := (· == star))
      (l := pat.drop c.pi))
    rw [List.length_append, List.length_drop] at hlen
    have hdrop : c.finish pat = true ↔ (pat.drop c.pi).dropWhile (· == star) = [] := by
      have hpi := hp.pi
      rw [Cursor.finish, beq_iff_eq, ← List.length_eq_zero_iff]
      omega
    rw [hdrop, List.dropWhile_eq_nil_iff, matches_empty_iff, ← List.map_drop, List.forall_mem_map]
    simp only [beq_iff_eq, token_eq_any]
  rw [hrest, Cursor.Ahead, hend]
  constructor
  · exact .inl
  · rintro (h | ⟨sp, hsp, h⟩)
    · exact h
    · obtain ⟨v, hv, hmatch⟩ := hs.skip hsp h
      rw [List.drop_eq_nil_of_le (by omega), List.suffix_nil] at hv
      exact hv ▸ hmatch

theorem next_placed (hp : c.Placed pat) (h : c.next pat b = some c') : c'.Placed pat := by
  rcases next_cases h with ⟨hacc, rfl⟩ | ⟨hpat, -, rfl⟩ | ⟨sp, hsp, -, -, rfl⟩
  · refine ⟨?_, hp.starPi⟩
    rcases hacc with hx | hx
    · exact (List.getElem?_eq_some_iff.1 hx).1
    · exact (List.getElem?_eq_some_iff.1 hx).1
  · have hlt := (List.getElem?_eq_some_iff.1 hpat).1
    exact ⟨hlt, fun sp hsp => Option.some.inj hsp ▸ hlt⟩
  · exact ⟨hp.starPi sp hsp, hp.starPi⟩

/-- The loop answers whether anything can still match. -/
theorem scan_ahead (hstar : star ∉ txt ∨ star ∉ pat) (hs : c.Since pat) (hp : c.Placed pat)
    (h : scan pat txt n c = some r) : r = true ↔ c.Ahead pat txt := by
  induction n generalizing c with
  | zero => cases h
  | succ n ih =>
    rw [scan] at h
    split at h
    · rename_i htxt
      obtain rfl := Option.some.inj h
      exact finish_ahead hs hp htxt
    · rename_i b hb
      have hb' : b ≠ star ∨ star ∉ pat :=
        hstar.imp_left fun hnot hbs => hnot (hbs ▸ List.mem_of_getElem? hb)
      split at h
      · rename_i hnone
        obtain rfl := Option.some.inj h
        obtain ⟨hacc, hpat, hnostar⟩ := next_eq_none hnone
        obtain ⟨hti, hget⟩ := List.getElem?_eq_some_iff.1 hb
        refine iff_of_false Bool.false_ne_true ?_
        rintro (hnow | ⟨sp, hsp, -⟩)
        · rw [List.drop_eq_getElem_cons hti, hget] at hnow
          exact not_matches_of_blocked hacc hpat hnow
        · rw [hnostar] at hsp
          cases hsp
      · rename_i c' hc'
        obtain ⟨hs', hahead⟩ := next_ahead hb hb' hs hc'
        rw [hahead]
        exact ih hs' (next_placed hp hc') h

/-- **The matcher on bytes**: it decides the language of the pattern, if the text or the
pattern has no star in it. -/
theorem globBytes_iff (hstar : star ∉ txt ∨ star ∉ pat) :
    globBytes pat txt = true ↔ Matches (pat.map token) txt := by
  have hs : Cursor.Since pat {} := fun sp hsp => by cases hsp
  have hp : Cursor.Placed pat {} := ⟨Nat.zero_le _, fun sp hsp => by cases hsp⟩
  rw [scan_ahead hstar hs hp (scan_globBytes (Nat.lt_succ_self _))]
  constructor
  · rintro (h | ⟨sp, hsp, -⟩)
    · exact h
    · cases hsp
  · exact .inl

end Correctness

/-! ## From bytes to characters -/

/-- Every character takes one byte. -/
def Ascii (cs : List Char) : Prop := ∀ c ∈ cs, c.val ≤ 127

section Characters

variable {p t u : List Char} {v : List UInt8} {P : List (Token UInt8)} {c : Char}

theorem token_of_special : String.utf8EncodeChar '*' = [star] ∧
    String.utf8EncodeChar '?' = [question] := by
  decide +kernel

/-- The bytes of an ordinary character stand for themselves. -/
theorem map_token_of_ordinary (hs : c ≠ '*') (hq : c ≠ '?') :
    (String.utf8EncodeChar c).map token = (String.utf8EncodeChar c).map .lit := by
  refine List.map_congr_left fun x hx => ?_
  have hmem : x ∈ bytes [c] := by simpa using hx
  have hstar : x ≠ star := by
    rintro rfl
    rw [mem_bytes token_of_special.1, List.mem_singleton] at hmem
    exact hs hmem.symm
  have hquestion : x ≠ question := by
    rintro rfl
    rw [mem_bytes token_of_special.2, List.mem_singleton] at hmem
    exact hq hmem.symm
  rw [token, if_neg hstar, if_neg hquestion]

theorem matches_lits (l : List UInt8) :
    Matches (l.map .lit ++ P) v ↔ ∃ w, v = l ++ w ∧ Matches P w := by
  induction l generalizing v with
  | nil => simp
  | cons x l ih =>
    rw [List.map_cons, List.cons_append, matches_cons Token.lit_ne_any]
    constructor
    · rintro ⟨a, w, rfl, rfl, hw⟩
      obtain ⟨w, rfl, hP⟩ := ih.1 hw
      exact ⟨w, rfl, hP⟩
    · rintro ⟨w, rfl, hP⟩
      exact ⟨x, l ++ w, rfl, rfl, ih.2 ⟨w, rfl, hP⟩⟩

theorem matches_ordinary (hs : c ≠ '*') (hq : c ≠ '?') :
    Matches ((bytes (c :: p)).map token) v ↔
      ∃ w, v = String.utf8EncodeChar c ++ w ∧ Matches ((bytes p).map token) w := by
  rw [bytes_cons, List.map_append, map_token_of_ordinary hs hq, matches_lits]

theorem map_token_star : (bytes ('*' :: p)).map token = .any :: (bytes p).map token := by
  rw [bytes_cons, token_of_special.1]
  rfl

theorem map_token_question : (bytes ('?' :: p)).map token = .one :: (bytes p).map token := by
  rw [bytes_cons, token_of_special.2]
  rfl

theorem suffix_bytes {x : UInt8} {w : List UInt8} (hv : x :: w <:+ bytes t)
    (hx : x.IsUTF8FirstByte) : ∃ s, s <:+ t ∧ x :: w = bytes s := by
  obtain ⟨a, ha⟩ := hv
  obtain ⟨u, s, rfl, -, hs⟩ := bytes_cut ha.symm hx
  exact ⟨s, List.suffix_append u s, hs⟩

theorem utf8EncodeChar_ascii (hc : c.val ≤ 127) : ∃ x, String.utf8EncodeChar c = [x] :=
  ⟨_, String.utf8EncodeChar_eq_singleton (Char.utf8Size_eq_one_iff.2 hc)⟩

theorem firstByte_of_ascii (ht : Ascii t) {x : UInt8} (hx : x ∈ bytes t) : x.IsUTF8FirstByte := by
  obtain ⟨c, hc, hxc⟩ := List.mem_flatMap.1 hx
  obtain ⟨y, hy⟩ := utf8EncodeChar_ascii (ht c hc)
  rw [hy, List.mem_singleton] at hxc
  subst hxc
  have hfirst := UInt8.isUTF8FirstByte_getElem_zero_utf8EncodeChar (c := c)
  simpa [hy] using hfirst

/-- A match that begins inside a character could as well begin behind it, unless the pattern
counts bytes. -/
theorem matches_aligned (h : Ascii t ∨ '?' ∉ p) (hv : v <:+ bytes t)
    (hp : Matches ((bytes p).map token) v) :
    ∃ s, s <:+ t ∧ bytes s <:+ v ∧ Matches ((bytes p).map token) (bytes s) := by
  rcases h with ht | hq
  · cases v with
    | nil => exact ⟨[], List.nil_suffix, List.suffix_rfl, hp⟩
    | cons x w =>
      have hfirst := firstByte_of_ascii ht (hv.subset List.mem_cons_self)
      obtain ⟨s, hs, heq⟩ := suffix_bytes hv hfirst
      exact ⟨s, hs, heq ▸ List.suffix_rfl, heq ▸ hp⟩
  · induction p generalizing v with
    | nil =>
      rw [bytes_nil, List.map_nil, matches_nil] at hp
      subst hp
      exact ⟨[], List.nil_suffix, List.suffix_rfl, rfl⟩
    | cons c p ih =>
      rw [List.mem_cons, not_or] at hq
      by_cases hs : c = '*'
      · subst hs
        rw [map_token_star] at hp ⊢
        obtain ⟨w, hw, hrest⟩ := hp
        obtain ⟨s, hst, hsw, hmatch⟩ := ih (hw.trans hv) hrest hq.2
        exact ⟨s, hst, hsw.trans hw, bytes s, List.suffix_rfl, hmatch⟩
      · -- the match begins with the first byte of an ordinary character
        obtain ⟨w, rfl, -⟩ := (matches_ordinary hs (Ne.symm hq.1)).1 hp
        have hfirst := UInt8.isUTF8FirstByte_getElem_zero_utf8EncodeChar (c := c)
        obtain ⟨x, xs, henc⟩ : ∃ x xs, String.utf8EncodeChar c = x :: xs :=
          List.exists_cons_of_length_pos
          (by rw [String.length_utf8EncodeChar]; exact c.utf8Size_pos)
        simp only [henc, List.getElem_cons_zero] at hfirst
        rw [henc] at hv hp ⊢
        obtain ⟨s, hst, heq⟩ := suffix_bytes hv hfirst
        exact ⟨s, hst, heq ▸ List.suffix_rfl, heq ▸ hp⟩

/-- **Bytes and characters agree**: the language of the pattern's bytes is that of its
characters, on ASCII text and for patterns that take no single symbol. -/
theorem matches_bytes_iff (h : Ascii t ∨ '?' ∉ p) :
    Matches ((bytes p).map token) (bytes t) ↔ Matches (p.map symbol) t := by
  induction p generalizing t with
  | nil => simp [bytes_eq_nil]
  | cons c p ih =>
    have hrest {s : List Char} (hs : s <:+ t) : Ascii s ∨ '?' ∉ p :=
      h.imp (fun ht c hc => ht c (hs.subset hc)) fun hq =>
        fun hmem => hq (List.mem_cons_of_mem c hmem)
    rw [List.map_cons]
    by_cases hs : c = '*'
    · subst hs
      have hsym : symbol '*' = .any := rfl
      rw [map_token_star, hsym, matches_any, matches_any]
      constructor
      · rintro ⟨v, hv, hp⟩
        obtain ⟨s, hst, -, hmatch⟩ := matches_aligned (hrest List.suffix_rfl) hv hp
        exact ⟨s, hst, (ih (hrest hst)).1 hmatch⟩
      · rintro ⟨s, ⟨u, rfl⟩, hp⟩
        refine ⟨bytes s, ?_, (ih (hrest (List.suffix_append u s))).2 hp⟩
        rw [bytes_append]
        exact List.suffix_append _ _
    · by_cases hq : c = '?'
      · subst hq
        have hsym : symbol '?' = .one := rfl
        have ht : Ascii t := h.resolve_right fun hnot => hnot List.mem_cons_self
        rw [map_token_question, hsym]
        cases t with
        | nil => exact iff_of_false (not_matches_cons_nil Token.one_ne_any) (not_matches_cons_nil Token.one_ne_any)
        | cons d t =>
          obtain ⟨x, hx⟩ := utf8EncodeChar_ascii (ht d List.mem_cons_self)
          rw [bytes_cons, hx, List.singleton_append, matches_cons_cons Token.one_ne_any,
            matches_cons_cons Token.one_ne_any, ih (hrest (List.suffix_cons d t))]
          simp [Token.Accepts]
      · have hsym : symbol c = .lit c := by rw [symbol, if_neg hs, if_neg hq]
        rw [matches_ordinary hs hq, hsym, matches_cons Token.lit_ne_any]
        constructor
        · rintro ⟨w, hw, hp⟩
          obtain ⟨s, rfl, rfl⟩ := bytes_prefix (u := [c]) (r := w) (by rw [hw]; simp)
          exact ⟨c, s, rfl, rfl, (ih (hrest (List.suffix_cons c s))).1 hp⟩
        · rintro ⟨d, s, rfl, rfl, hp⟩
          exact ⟨bytes s, bytes_cons c s, (ih (hrest (List.suffix_cons c s))).2 hp⟩

end Characters

/-! ## The rules of a policy -/

/-- The pattern and the name give the matcher no star to mistake and no character to cut. -/
structure Fits (pattern name : String) : Prop where
  star : '*' ∉ name.toList ∨ '*' ∉ pattern.toList
  question : Ascii name.toList ∨ '?' ∉ pattern.toList

section Policy

variable {pattern name : String} {cs u v : List Char}

theorem globMatch_iff (h : Fits pattern name) :
    globMatch pattern name = true ↔ InLanguage pattern name := by
  have hstar : star ∉ bytes name.toList ∨ star ∉ bytes pattern.toList := by
    rw [mem_bytes token_of_special.1, mem_bytes token_of_special.1]
    exact h.star
  rw [globMatch, globBytes_iff hstar, matches_bytes_iff h.question]
  rfl

/-- The loop over the rules decides by the first one that matches. -/
theorem evaluate_decides {rules : List ToolPolicyRule}
    (h : ∀ r ∈ rules, (globMatch r.pattern name = true ↔ InLanguage r.pattern name))
    (agentId : String) : Decides rules name (evaluate rules name agentId) := by
  induction rules with
  | nil => exact .inr ⟨by simp, rfl⟩
  | cons rule rules ih =>
    rw [List.forall_mem_cons] at h
    rw [evaluate]
    split
    · rename_i hmatch
      exact .inl ⟨[], rule, rules, rfl, by simp, h.1.1 hmatch, rfl⟩
    · rename_i hmatch
      have hnot : ¬ InLanguage rule.pattern name := fun hin => hmatch (h.1.2 hin)
      rcases ih h.2 with ⟨before, r, after, rfl, hbefore, hin, hd⟩ | ⟨hnone, hd⟩
      · exact .inl ⟨rule :: before, r, after, rfl,
          List.forall_mem_cons.2 ⟨hnot, hbefore⟩, hin, hd⟩
      · exact .inr ⟨List.forall_mem_cons.2 ⟨hnot, hnone⟩, hd⟩

/-! ### Names that some pattern gets wrong -/

theorem matches_questions (cs : List Char) :
    Matches ((List.replicate cs.length '?').map symbol) cs := by
  have hsym : symbol '?' = .one := rfl
  induction cs with
  | nil => rfl
  | cons c cs ih =>
    rw [List.length_cons, List.replicate_succ, List.map_cons, hsym,
      matches_cons_cons Token.one_ne_any]
    exact ⟨trivial, ih⟩

theorem matches_self {P : List (Token Char)} (h : Matches P v) :
    Matches (u.map symbol ++ P) (u ++ v) := by
  induction u with
  | nil => exact h
  | cons c u ih =>
    rw [List.map_cons, List.cons_append, List.cons_append]
    unfold symbol
    split
    · exact ⟨u ++ v, List.suffix_cons c _, ih⟩
    · split
      · exact (matches_cons_cons Token.one_ne_any).2 ⟨trivial, ih⟩
      · exact (matches_cons_cons Token.lit_ne_any).2 ⟨rfl, ih⟩

theorem ascii_of_length_bytes (h : (bytes cs).length = cs.length) : Ascii cs := by
  induction cs with
  | nil => exact fun c hc => by cases hc
  | cons c cs ih =>
    have hle := length_le_length_bytes cs
    have hpos := c.utf8Size_pos
    rw [bytes_cons, List.length_append, String.length_utf8EncodeChar, List.length_cons] at h
    exact List.forall_mem_cons.2 ⟨Char.utf8Size_eq_one_iff.1 (by omega), ih (by omega)⟩

theorem length_bytes_of_ascii (h : Ascii cs) : (bytes cs).length = cs.length := by
  induction cs with
  | nil => rfl
  | cons c cs ih =>
    obtain ⟨hc, hcs⟩ := List.forall_mem_cons.1 h
    rw [bytes_cons, List.length_append, String.length_utf8EncodeChar, ih hcs,
      Char.utf8Size_eq_one_iff.2 hc, List.length_cons, Nat.add_comm]

theorem bytes_questions (n : ℕ) : bytes (List.replicate n '?') = List.replicate n question := by
  induction n with
  | zero => rfl
  | succ n ih => rw [List.replicate_succ, bytes_cons, token_of_special.2, ih]; rfl

theorem ascii_of_questions
    (h : globMatch (String.ofList (List.replicate name.toList.length '?')) name = true) :
    Ascii name.toList := by
  rw [globMatch, String.toList_ofList, bytes_questions] at h
  have hfree : StarFree ((List.replicate name.toList.length question).map token) := by
    rw [List.map_replicate]
    exact fun t ht => (List.eq_of_mem_replicate ht) ▸ Token.one_ne_any
  have hstar : star ∉ List.replicate name.toList.length question := fun hmem =>
    absurd (List.eq_of_mem_replicate hmem) (by decide)
  have hlen := hfree.length_eq ((globBytes_iff (.inr hstar)).1 h)
  rw [List.length_map, List.length_replicate] at hlen
  exact ascii_of_length_bytes hlen.symm

/-- A loop that takes every byte of the text ends where the pattern goes on. -/
theorem scan_taken {pat txt : List UInt8} (k i : ℕ) (hk : i + k = txt.length)
    (h : ∀ j b, i ≤ j → txt[j]? = some b → pat[j]? = some question ∨ pat[j]? = some b) :
    scan pat txt (k + 1) { pi := i, ti := i } =
      some (Cursor.finish pat { pi := txt.length, ti := txt.length }) := by
  induction k generalizing i with
  | zero =>
    obtain rfl : i = txt.length := hk
    rw [scan, List.getElem?_eq_none le_rfl]
  | succ k ih =>
    have hi : i < txt.length := by omega
    have hget := List.getElem?_eq_getElem hi
    have hnext : Cursor.next pat txt[i] { pi := i, ti := i } =
      some { pi := i + 1, ti := i + 1 } :=
      if_pos (h i _ le_rfl hget)
    rw [scan, hget]
    dsimp only
    rw [hnext]
    exact ih (i + 1) (by omega) fun j b hj => h j b (by omega)

/-- The pattern that spells the name up to a star, has that star, and then a question mark for
the star of the name and each character after it. -/
def misleading (u v : List Char) : List Char := u ++ '*' :: List.replicate (v.length + 1) '?'

theorem matches_misleading : Matches ((misleading u v).map symbol) (u ++ '*' :: v) := by
  have hsym : symbol '*' = .any := rfl
  rw [misleading, List.map_append, List.map_cons, hsym]
  refine matches_self ⟨'*' :: v, List.suffix_rfl, ?_⟩
  exact matches_questions ('*' :: v)

/-- The loop takes the star of the pattern for the star of the name. -/
theorem globBytes_misleading (hv : Ascii v) :
    globBytes (bytes (misleading u v)) (bytes (u ++ '*' :: v)) = false := by
  have hlen := length_bytes_of_ascii hv
  have hpat : bytes (misleading u v) =
      bytes u ++ [star] ++ List.replicate (v.length + 1) question := by
    rw [misleading, bytes_append, bytes_cons, token_of_special.1, bytes_questions,
      List.append_assoc]
  have htxt : bytes (u ++ '*' :: v) = bytes u ++ [star] ++ bytes v := by
    rw [bytes_append, bytes_cons, token_of_special.1, List.append_assoc]
  rw [hpat, htxt]
  generalize bytes u ++ [star] = w
  refine globBytes_eq ((scan_taken (w ++ bytes v).length 0 (Nat.zero_add _) ?_).trans ?_)
  · intro j b _ hb
    by_cases hj : j < w.length
    · rw [List.getElem?_append_left hj] at hb ⊢
      exact .inr hb
    · have hlt := (List.getElem?_eq_some_iff.1 hb).1
      rw [List.length_append] at hlt
      rw [List.getElem?_append_right (not_lt.1 hj), List.getElem?_replicate,
        if_pos (by omega)]
      exact .inl rfl
  · -- one question mark is left over
    refine congrArg some (beq_eq_false_iff_ne.2 fun heq => ?_)
    have hdrop : (w ++ List.replicate (v.length + 1) question).drop (w ++ bytes v).length =
        [question] := by
      rw [List.length_append, List.drop_append, List.drop_eq_nil_of_le (by omega), hlen,
        List.nil_append, List.drop_replicate]
      have hone : v.length + 1 - (w.length + v.length - w.length) = 1 := by omega
      rw [hone]
      rfl
    have hnone : ([question].takeWhile (· == star)).length = 0 := by decide
    rw [hdrop, hnone] at heq
    simp only [List.length_append, List.length_replicate] at heq
    omega

/-- **When the policies mean what they say.**  The matcher always returns.  A rule list whose
patterns fit the name decides as its languages say.  And a name is treated right by every
pattern and every rule list exactly if it is ASCII without a star: for any other name there
is a pattern that the matcher gets wrong. -/
theorem policy_exact_iff (name : String) :
    (∀ pattern, Returns pattern name (globMatch pattern name)) ∧
      (∀ rules agentId, (∀ r ∈ rules, Fits r.pattern name) →
        (∀ r ∈ rules, (globMatch r.pattern name = true ↔ InLanguage r.pattern name)) ∧
          Decides rules name (evaluate rules name agentId)) ∧
      (((∀ pattern, globMatch pattern name = true ↔ InLanguage pattern name) ∧
        ∀ rules agentId, Decides rules name (evaluate rules name agentId)) ↔
          Ascii name.toList ∧ '*' ∉ name.toList) := by
  refine ⟨fun pattern => globMatch_returns pattern name, ?_, ?_, ?_⟩
  · intro rules agentId hfit
    have hmatch : ∀ r ∈ rules, (globMatch r.pattern name = true ↔ InLanguage r.pattern name) :=
      fun r hr => globMatch_iff (hfit r hr)
    exact ⟨hmatch, evaluate_decides hmatch agentId⟩
  · rintro ⟨hexact, -⟩
    have hascii : Ascii name.toList := by
      refine ascii_of_questions ((hexact _).2 ?_)
      rw [InLanguage, String.toList_ofList]
      exact matches_questions name.toList
    refine ⟨hascii, fun hstar => ?_⟩
    obtain ⟨u, v, huv⟩ := List.append_of_mem hstar
    have hv : Ascii v := fun c hc => hascii c (by rw [huv]; simp [hc])
    have hin : InLanguage (String.ofList (misleading u v)) name := by
      rw [InLanguage, String.toList_ofList, huv]
      exact matches_misleading
    have hmatch := (hexact _).2 hin
    rw [globMatch, String.toList_ofList, huv, globBytes_misleading hv] at hmatch
    cases hmatch
  · rintro ⟨hascii, hstar⟩
    have hfit (pattern : String) : Fits pattern name := ⟨.inl hstar, .inl hascii⟩
    exact ⟨fun pattern => globMatch_iff (hfit pattern),
      fun rules agentId => evaluate_decides (fun r _ => globMatch_iff (hfit r.pattern)) agentId⟩

/-- A rule list that denies everything lets a tool through whose name begins with a star. -/
theorem denied_tool_allowed :
    let rules : List ToolPolicyRule := [{ pattern := "*", action := .deny }]
    InLanguage "*" "*x" ∧ globMatch "*" "*x" = false ∧
      evaluate rules "*x" "atlas" = .allow ∧ ¬ Decides rules "*x" (evaluate rules "*x" "atlas") := by
  have hin : InLanguage "*" "*x" := ⟨[], List.nil_suffix, rfl⟩
  have heval : evaluate [{ pattern := "*", action := .deny }] "*x" "atlas" = .allow := by
    decide +kernel
  refine ⟨hin, by decide +kernel, heval, ?_⟩
  rw [heval]
  rintro (⟨before, rule, after, hrules, hbefore, -, hd⟩ | ⟨hnone, -⟩)
  · cases before with
    | nil =>
        obtain ⟨rfl, -⟩ := List.cons.inj hrules
        cases hd
    | cons r before =>
        obtain ⟨rfl, -⟩ := List.cons.inj hrules
        exact hbefore _ List.mem_cons_self hin
  · exact hnone _ List.mem_cons_self hin

end Policy

end XpressClaw.Tools
