import Mathlib.Tactic.Linarith
import Mathlib.Tactic.Ring
import XpressClaw.Budget.Manager

/-!
# What is spent is booked

Every save writes the whole row back from what its call has read, so a save that meets
another row than that one drops what was written in between.

* `Pc.Fresh` — the save of a call finds the row as the call knows it.
* `Ledger.Booked` — the counters of the row are the sums of what was booked: in all, since
  the day began, since the month began.
* `Ledger.step_owed` — what is booked and what the calls have still to book never changes.
* `spending_not_lost` — the three together, over every run whose saves are fresh.
-/

namespace XpressClaw.Budget

open Lib

/-! ## Saves -/

/-- The database call writes the whole row. -/
def Pc.saves : Pc → Bool
  | .insert _ => true
  | .reset _ _ _ => true
  | .spend _ _ => true
  | .clearModel _ => true
  | _ => false

/-- What a call that saves takes the row to be. -/
def Pc.Fresh (row : Option BudgetState) : Pc → Prop
  | .insert _ => row = none
  | .reset _ seen _ => row = some seen
  | .spend _ state => row = some state
  -- `resume` has cleared the reason, which the call still holds
  | .clearModel state => row = some { state with pauseReason := none }
  | _ => True

instance (row : Option BudgetState) : (pc : Pc) → Decidable (pc.Fresh row)
  | .insert _ => inferInstanceAs (Decidable (_ = _))
  | .reset _ _ _ => inferInstanceAs (Decidable (_ = _))
  | .spend _ _ => inferInstanceAs (Decidable (_ = _))
  | .clearModel _ => inferInstanceAs (Decidable (_ = _))
  | .query _ => inferInstanceAs (Decidable True)
  | .pause _ _ => inferInstanceAs (Decidable True)
  | .degrade _ => inferInstanceAs (Decidable True)
  | .unpause _ => inferInstanceAs (Decidable True)
  | .lift => inferInstanceAs (Decidable True)
  | .done _ => inferInstanceAs (Decidable True)

/-- The save of a turn, if it is one, meets the row its call has last seen. -/
def Ledger.Fresh (c : Ledger) (turn : ℕ × Clock) : Prop :=
  ∀ pc ∈ c.calls[turn.1]?, pc.Fresh c.row

instance (c : Ledger) (turn : ℕ × Clock) : Decidable (c.Fresh turn) :=
  inferInstanceAs (Decidable (∀ pc ∈ c.calls[turn.1]?, pc.Fresh c.row))

/-! ## What is booked -/

def Entry.cost : Entry → ℚ
  | .spent cost => cost
  | .newDay => 0
  | .newMonth => 0

/-- All costs booked. -/
def total (es : List Entry) : ℚ := (es.map Entry.cost).sum

/-- The costs booked since the last entry of a kind. -/
def since (mark : Entry) (es : List Entry) : ℚ := total (es.takeWhile (· ≠ mark))

/-- The counters of the row are the sums of what was booked. -/
structure Ledger.Booked (c : Ledger) : Prop where
  all : (c.row.map BudgetState.totalSpent).getD 0 = total c.entries
  day : (c.row.map BudgetState.dailySpent).getD 0 = since .newDay c.entries
  month : (c.row.map BudgetState.monthlySpent).getD 0 = since .newMonth c.entries

@[simp] theorem total_nil : total [] = 0 := rfl

@[simp] theorem total_cons (e : Entry) (es : List Entry) : total (e :: es) = e.cost + total es := by
  simp [total]

theorem since_cons_self (mark : Entry) (es : List Entry) : since mark (mark :: es) = 0 := by
  simp [since]

theorem since_cons_of_ne {mark e : Entry} (h : e ≠ mark) (es : List Entry) :
    since mark (e :: es) = e.cost + since mark es := by
  simp [since, h]

/-! ## One database call -/

section Step

variable {m : Manager} {agentId : String} {clock : Clock} {row : Option BudgetState} {pc : Pc}

/-- What a call has still to book. -/
def Pc.owed : Pc → ℚ
  | .query (.updateSpending cost) => cost
  | .insert (.updateSpending cost) => cost
  | .reset (.updateSpending cost) _ _ => cost
  | .spend cost _ => cost
  | _ => 0

def Call.cost : Call → ℚ
  | .updateSpending cost => cost
  | _ => 0

theorem owed_start (call : Call) : call.start.owed = call.cost := by
  cases call <;> rfl

theorem owed_proceed (state : BudgetState) (call : Call) :
    (m.proceed agentId state call).owed = call.cost := by
  cases call with
  | updateSpending cost => rfl
  | checkBudget =>
    simp only [Manager.proceed, Manager.check]
    split
    · split <;> rfl
    · rfl
  | getSummary => rfl
  | resume => rfl

theorem owed_loaded (call : Call) (state : BudgetState) :
    (m.loaded agentId clock call state).owed = call.cost := by
  rw [Manager.loaded]
  split
  · cases call <;> rfl
  · exact owed_proceed state call

theorem owed_checkLimits (state : BudgetState) : (m.checkLimits agentId state).owed = 0 := by
  rw [Manager.checkLimits]
  split
  · rfl
  · split <;> rfl

/-- A database call books what it no longer owes. -/
theorem owed_step : total pc.books + (m.step agentId clock row pc).2.owed = pc.owed := by
  cases pc with
  | query call =>
    cases row with
    | none => cases call <;> simp [Manager.step, Pc.books, Pc.owed]
    | some state =>
      simp only [Manager.step, Pc.books, owed_loaded]
      cases call <;> simp [Pc.owed, Call.cost]
  | insert call =>
    simp only [Manager.step, Pc.books, owed_loaded]
    cases call <;> simp [Pc.owed, Call.cost]
  | reset call seen at_ =>
    have hbooks : total (Pc.books (.reset call seen at_)) = 0 := by
      simp only [Pc.books]
      split <;> split <;> simp [Entry.cost]
    rw [hbooks]
    simp only [Manager.step, owed_proceed]
    cases call <;> simp [Pc.owed, Call.cost]
  | spend cost state =>
    simp only [Manager.step, Pc.books, owed_checkLimits]
    simp [Pc.owed, Entry.cost]
  | unpause state =>
    simp only [Manager.step, Pc.books]
    split <;> simp [Pc.owed]
  | pause reason state => simp [Manager.step, Pc.books, Pc.owed]
  | degrade state => simp [Manager.step, Pc.books, Pc.owed]
  | clearModel state => simp [Manager.step, Pc.books, Pc.owed]
  | lift => simp [Manager.step, Pc.books, Pc.owed]
  | done outcome => simp [Manager.step, Pc.books, Pc.owed]

theorem resetDaily_eq (clock : Clock) (s : BudgetState) : ∃ dailyAt,
    (s.resetDaily clock).1 = { s with
      dailySpent   := if s.dayOver clock then 0 else s.dailySpent
      dailyResetAt := dailyAt } := by
  rw [BudgetState.resetDaily, BudgetState.dayOver]
  cases hat : s.dailyResetAt with
  | none => exact ⟨_, rfl⟩
  | some at_ =>
    cases hover : clock.expired at_ with
    | false => exact ⟨s.dailyResetAt, by simp [hover]⟩
    | true => exact ⟨some clock.nextDaily, by simp [hover]⟩

theorem resetMonthly_eq (clock : Clock) (s : BudgetState) : ∃ monthlyAt,
    (s.resetMonthly clock).1 = { s with
      monthlySpent   := if s.monthOver clock then 0 else s.monthlySpent
      monthlyResetAt := monthlyAt } := by
  rw [BudgetState.resetMonthly, BudgetState.monthOver]
  cases hat : s.monthlyResetAt with
  | none => exact ⟨_, rfl⟩
  | some at_ =>
    cases hover : clock.expired at_ with
    | false => exact ⟨s.monthlyResetAt, by simp [hover]⟩
    | true => exact ⟨some clock.nextMonthly, by simp [hover]⟩

/-- A reset zeroes the counters whose period is over and keeps the rest. -/
theorem maybeReset_eq (clock : Clock) (s : BudgetState) : ∃ dailyAt monthlyAt,
    (s.maybeReset clock).1 = { s with
      dailySpent     := if s.dayOver clock then 0 else s.dailySpent
      dailyResetAt   := dailyAt
      monthlySpent   := if s.monthOver clock then 0 else s.monthlySpent
      monthlyResetAt := monthlyAt } := by
  obtain ⟨dailyAt, hdaily⟩ := resetDaily_eq clock s
  obtain ⟨monthlyAt, hmonthly⟩ := resetMonthly_eq clock (s.resetDaily clock).1
  refine ⟨dailyAt, monthlyAt, ?_⟩
  rw [BudgetState.maybeReset]
  simp only [hmonthly]
  rw [hdaily]
  rfl

/-- A fresh save keeps the flags of the row. -/
theorem saves_keep (hfresh : pc.Fresh row) (hsaves : pc.saves) {r : BudgetState}
    (hrow : row = some r) : ∃ r', (m.step agentId clock row pc).1 = some r' ∧
      r'.isPaused = r.isPaused ∧ r'.degradedModel = r.degradedModel := by
  subst hrow
  cases pc with
  | insert call => cases hfresh
  | reset call seen at_ =>
    obtain rfl : r = seen := Option.some.inj hfresh
    obtain ⟨dailyAt, monthlyAt, heq⟩ := maybeReset_eq at_ r
    exact ⟨_, rfl, by rw [heq], by rw [heq]⟩
  | spend cost state =>
    obtain rfl : r = state := Option.some.inj hfresh
    exact ⟨_, rfl, rfl, rfl⟩
  | clearModel state =>
    obtain rfl : r = { state with pauseReason := none } := Option.some.inj hfresh
    exact ⟨_, rfl, rfl, rfl⟩
  | query call => cases hsaves
  | pause reason state => cases hsaves
  | degrade state => cases hsaves
  | unpause state => cases hsaves
  | lift => cases hsaves
  | done outcome => cases hsaves

/-- What a database call does to the sums, whatever else the row holds. -/
theorem booked_step (m : Manager) (agentId : String) (clock : Clock) {es : List Entry}
    (hfresh : pc.Fresh row)
    (h : Ledger.Booked { row, entries := es, calls := [] }) :
    Ledger.Booked
      { row := (m.step agentId clock row pc).1, entries := pc.books ++ es, calls := [] } := by
  obtain ⟨hall, hday, hmonth⟩ := h
  simp only at hall hday hmonth
  cases pc with
  | query call =>
    cases row with
    | none => exact ⟨hall, hday, hmonth⟩
    | some state => exact ⟨hall, hday, hmonth⟩
  | insert call =>
    obtain rfl : row = none := hfresh
    exact ⟨hall, hday, hmonth⟩
  | reset call seen at_ =>
    obtain rfl : row = some seen := hfresh
    obtain ⟨dailyAt, monthlyAt, heq⟩ := maybeReset_eq at_ seen
    simp only [Option.map_some, Option.getD_some] at hall hday hmonth
    have hbooks : Pc.books (.reset call seen at_) ++ es =
        (if seen.dayOver at_ then [.newDay] else []) ++
          ((if seen.monthOver at_ then [.newMonth] else []) ++ es) := List.append_assoc ..
    rw [hbooks]
    refine ⟨?_, ?_, ?_⟩
    · simp only [Manager.step, heq, Option.map_some, Option.getD_some, hall]
      split <;> split <;> simp [Entry.cost]
    · simp only [Manager.step, heq, Option.map_some, Option.getD_some]
      split
      · simp [since_cons_self]
      · rw [hday, List.nil_append]
        split
        · rw [List.singleton_append, since_cons_of_ne (by decide), Entry.cost, zero_add]
        · rfl
    · simp only [Manager.step, heq, Option.map_some, Option.getD_some]
      have hskip : ∀ es, since .newMonth ((if seen.dayOver at_ then [.newDay] else []) ++ es) =
          since .newMonth es := by
        intro es
        split
        · rw [List.singleton_append, since_cons_of_ne (by decide), Entry.cost, zero_add]
        · rfl
      rw [hskip]
      split
      · simp [since_cons_self]
      · exact hmonth
  | spend cost state =>
    obtain rfl : row = some state := hfresh
    simp only [Option.map_some, Option.getD_some] at hall hday hmonth
    refine ⟨?_, ?_, ?_⟩
    · simp only [Manager.step, Pc.books, Option.map_some, Option.getD_some, BudgetState.addCost,
        List.singleton_append, total_cons, Entry.cost, hall]
      ring
    · rw [Pc.books, List.singleton_append, since_cons_of_ne (by simp), ← hday]
      simp only [Manager.step, Option.map_some, Option.getD_some, BudgetState.addCost, Entry.cost]
      ring
    · rw [Pc.books, List.singleton_append, since_cons_of_ne (by simp), ← hmonth]
      simp only [Manager.step, Option.map_some, Option.getD_some, BudgetState.addCost, Entry.cost]
      ring
  | clearModel state =>
    obtain rfl : row = some { state with pauseReason := none } := hfresh
    exact ⟨hall, hday, hmonth⟩
  | pause reason state => cases row <;> exact ⟨hall, hday, hmonth⟩
  | degrade state => cases row <;> exact ⟨hall, hday, hmonth⟩
  | unpause state => cases row <;> exact ⟨hall, hday, hmonth⟩
  | lift => cases row <;> exact ⟨hall, hday, hmonth⟩
  | done outcome => exact ⟨hall, hday, hmonth⟩

end Step

/-! ## Runs -/

section Runs

variable {m : Manager} {agentId : String} {c : Ledger}

theorem Ledger.step_eq {turn : ℕ × Clock} {pc : Pc} (h : c.calls[turn.1]? = some pc) :
    c.step m agentId turn =
      { row     := (m.step agentId turn.2 c.row pc).1
        entries := pc.books ++ c.entries
        calls   := c.calls.set turn.1 (m.step agentId turn.2 c.row pc).2 } := by
  rw [Ledger.step, h]

theorem Ledger.step_of_none {turn : ℕ × Clock} (h : c.calls[turn.1]? = none) :
    c.step m agentId turn = c := by
  rw [Ledger.step, h]

theorem Ledger.step_booked (h : c.Booked) {turn : ℕ × Clock} (hfresh : c.Fresh turn) :
    (c.step m agentId turn).Booked := by
  cases hpc : c.calls[turn.1]? with
  | none => rwa [Ledger.step_of_none hpc]
  | some pc =>
    rw [Ledger.step_eq hpc]
    obtain ⟨hall, hday, hmonth⟩ := booked_step m agentId turn.2 (hfresh pc hpc)
      ⟨h.all, h.day, h.month⟩
    exact ⟨hall, hday, hmonth⟩

/-- What the calls have still to book. -/
def Ledger.owed (c : Ledger) : ℚ := (c.calls.map Pc.owed).sum

theorem sum_set_owed {calls : List Pc} {i : ℕ} {pc : Pc} (h : calls[i]? = some pc) (pc' : Pc) :
    ((calls.set i pc').map Pc.owed).sum + pc.owed = (calls.map Pc.owed).sum + pc'.owed := by
  induction calls generalizing i with
  | nil => simp at h
  | cons a calls ih =>
    cases i with
    | zero =>
      obtain rfl : a = pc := by simpa using h
      simp only [List.set_cons_zero, List.map_cons, List.sum_cons]
      ring
    | succ i =>
      have hrest := ih (i := i) (by simpa using h)
      simp only [List.set_cons_succ, List.map_cons, List.sum_cons]
      linarith

/-- What is booked and what is still to be booked never changes. -/
theorem Ledger.step_owed (turn : ℕ × Clock) :
    total (c.step m agentId turn).entries + (c.step m agentId turn).owed =
      total c.entries + c.owed := by
  cases hpc : c.calls[turn.1]? with
  | none => rw [Ledger.step_of_none hpc]
  | some pc =>
    rw [Ledger.step_eq hpc]
    have hset := sum_set_owed hpc (m.step agentId turn.2 c.row pc).2
    have hstep : total pc.books + (m.step agentId turn.2 c.row pc).2.owed = pc.owed := owed_step
    have happend : total (pc.books ++ c.entries) = total pc.books + total c.entries := by
      simp [total]
    simp only [Ledger.owed, happend]
    linarith

theorem owed_start_calls (calls : List Call) :
    (Ledger.start calls).owed = (calls.map Call.cost).sum := by
  rw [Ledger.owed, Ledger.start, List.map_map]
  congr 1
  exact List.map_congr_left fun call _ => owed_start call

/-- The call has returned. -/
def Pc.returned : Pc → Bool
  | .done _ => true
  | _ => false

theorem Ledger.owed_of_returned (h : ∀ pc ∈ c.calls, pc.returned) : c.owed = 0 := by
  have hzero : ∀ x ∈ c.calls.map Pc.owed, x = 0 := by
    intro x hx
    obtain ⟨pc, hpc, rfl⟩ := List.mem_map.1 hx
    have hdone := h pc hpc
    cases pc <;> first | rfl | cases hdone
  exact List.sum_eq_zero hzero

/-- **No spending is lost while no save meets a row that was written behind its back.**
Along every run of any calls in which each save of the whole row finds it as its call knows
it: the counters of the row are the sums of what was booked, in all and since each period
began; once every call has returned, that is the sum of all costs; and no save clears a
pause or a degradation. -/
theorem spending_not_lost (m : Manager) (agentId : String) (calls : List Call)
    (run : List (ℕ × Clock))
    (hfresh : Along (Ledger.step m agentId) Ledger.Fresh (Ledger.start calls) run) :
    let reached := fun turns => runOps (Ledger.step m agentId) (Ledger.start calls) turns
    (reached run).Booked ∧
      ((∀ pc ∈ (reached run).calls, pc.returned) →
        ((reached run).row.map BudgetState.totalSpent).getD 0 = (calls.map Call.cost).sum) ∧
      ∀ before turn after, run = before ++ turn :: after →
        ∀ pc ∈ (reached before).calls[turn.1]?, pc.saves → ∀ r ∈ (reached before).row,
          ∃ r' ∈ (reached (before ++ [turn])).row,
            r'.isPaused = r.isPaused ∧ r'.degradedModel = r.degradedModel := by
  intro reached
  have hbooked : (reached run).Booked :=
    hfresh.invariant (fun _ _ h hf => Ledger.step_booked h hf) ⟨rfl, rfl, rfl⟩
  refine ⟨hbooked, fun hreturned => ?_, ?_⟩
  · have howed : ∀ turns, total (reached turns).entries + (reached turns).owed =
        (calls.map Call.cost).sum := by
      intro turns
      refine runOps_invariant
        (I := fun c : Ledger => total c.entries + c.owed = (calls.map Call.cost).sum)
        (fun c turn h => by rw [Ledger.step_owed, h]) ?_ turns
      rw [owed_start_calls]
      exact zero_add _
    have hsum := howed run
    rw [Ledger.owed_of_returned hreturned, add_zero] at hsum
    rw [hbooked.all, hsum]
  · rintro before turn after rfl pc hpc hsaves r hr
    have hturn : (reached before).Fresh turn := (along_append.1 hfresh).2.1
    obtain ⟨r', hr', hkeep⟩ := saves_keep (hturn pc hpc) hsaves hr
    refine ⟨r', ?_, hkeep⟩
    simp only [reached] at hpc ⊢
    rw [runOps_concat, Ledger.step_eq hpc]
    exact hr'

end Runs

/-! ## Two requests of one agent -/

/-- The daily limit of the system is ten dollars. -/
def tenDollars : Manager where
  system := { daily := some "$10.00" }
  parse := fun s => if s = "10.00" then some 10 else none
  cents := fun _ => "10.00"

/-- A day on which no period ends. -/
def morning : Clock where
  expired := fun _ => false
  nextDaily := "2026-01-02 00:00:00"
  nextMonthly := "2026-02-01 00:00:00"

/-- Two requests of six dollars each. -/
def twoRequests : List Call := [.updateSpending 6, .updateSpending 6]

/-- One request after the other. -/
def inTurn : List (ℕ × Clock) := [0, 0, 0, 0, 1, 1, 1].map fun i => (i, morning)

/-- The second request reads the row before the first has saved it. -/
def atOnce : List (ℕ × Clock) := [0, 0, 0, 1, 0, 1].map fun i => (i, morning)

/-- One after the other, the two requests are booked and the agent is paused. -/
theorem spending_not_lost_inTurn :
    ((runOps (Ledger.step tenDollars "atlas") (Ledger.start twoRequests) inTurn).row.map
      BudgetState.totalSpent).getD 0 = 12 := by
  have hfresh : Along (Ledger.step tenDollars "atlas") Ledger.Fresh (Ledger.start twoRequests)
      inTurn := by decide +kernel
  have hreturned : ∀ pc ∈ (runOps (Ledger.step tenDollars "atlas") (Ledger.start twoRequests)
      inTurn).calls, pc.returned := by decide +kernel
  have hsum : (twoRequests.map Call.cost).sum = 12 := by decide +kernel
  rw [(spending_not_lost tenDollars "atlas" twoRequests inTurn hfresh).2.1 hreturned, hsum]

/-- At once, both return and six dollars are booked of twelve. -/
theorem spending_lost_atOnce :
    let c := runOps (Ledger.step tenDollars "atlas") (Ledger.start twoRequests) atOnce
    (∀ pc ∈ c.calls, pc.returned) ∧ c.row.map BudgetState.totalSpent = some 6 ∧
      (twoRequests.map Call.cost).sum = 12 := by
  decide +kernel

end XpressClaw.Budget
