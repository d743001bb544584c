import Mathlib.Algebra.BigOperators.Ring.List
import XpressClaw.Budget.Ledger
import XpressClaw.Lib.Upsert

/-!
# The end of a budget period

A call of the manager alone, with no other call in between, and what it makes of a row whose
period is over.

* `Manager.call` — a call from its first database call to its last; `call_state` is what
  `get_state` gives it.
* `restriction_lifted_iff` — a check under both limits frees the agent unless it was degraded
  and not paused: only the branch of a paused agent looks at the degraded model.
* `BudgetTable` — the rows of all agents.
* `summary_agrees_iff` — the global summary adds up the stored rows; it agrees with the
  summaries of the agents, which reset a row first, unless rows whose period is over still
  carry spending.
-/

namespace XpressClaw.Budget

open Lib

/-! ## A call alone -/

namespace Manager

variable (m : Manager) (agentId : String)

/-- One database call, as a step of a call that runs alone. -/
def advance (clock : Clock) (c : Option BudgetState × Pc) : Option BudgetState × Pc :=
  m.step agentId clock c.1 c.2

/-- A call that runs alone: the row it leaves and where it stands.  No call makes more than
five database calls. -/
def call (clock : Clock) (row : Option BudgetState) (c : Call) : Option BudgetState × Pc :=
  (m.advance agentId clock)^[5] (row, c.start)

/-- The row after one of the calls of a run. -/
def serve (row : Option BudgetState) (c : Call × Clock) : Option BudgetState :=
  (m.call agentId c.2 row c.1).1

/-- The spending is under both limits. -/
def withinLimits (state : BudgetState) : Bool :=
  let budget := m.effectiveBudget agentId
  under (m.dailyAmount budget) state.dailySpent && under (m.monthlyAmount budget) state.monthlySpent

end Manager

/-- What `get_state` returns. -/
def stateAt (agentId : String) (clock : Clock) (row : Option BudgetState) : BudgetState :=
  ((row.getD { agentId }).maybeReset clock).1

section Call

variable {m : Manager} {agentId : String} {clock : Clock} {row : Option BudgetState}

theorem advance_done (o : Outcome) (k : ℕ) :
    (m.advance agentId clock)^[k] (row, .done o) = (row, .done o) :=
  Function.iterate_fixed rfl k

/-- A row that no reset changes is returned as it is. -/
theorem maybeReset_of_unchanged {s : BudgetState} (h : (s.maybeReset clock).2 = false) :
    (s.maybeReset clock).1 = s := by
  obtain ⟨hdaily, hmonthly⟩ := Bool.or_eq_false_iff.1 h
  have hday : (s.resetDaily clock).1 = s := by
    unfold BudgetState.resetDaily at hdaily ⊢
    split
    · rename_i at_ hat
      rw [hat] at hdaily
      dsimp only at hdaily ⊢
      split at hdaily
      · cases hdaily
      · rename_i hexp
        rw [if_neg hexp]
    · rename_i hat
      rw [hat] at hdaily
      cases hdaily
  have hmonth : (s.resetMonthly clock).1 = s := by
    rw [hday] at hmonthly
    unfold BudgetState.resetMonthly at hmonthly ⊢
    split
    · rename_i at_ hat
      rw [hat] at hmonthly
      dsimp only at hmonthly ⊢
      split at hmonthly
      · cases hmonthly
      · rename_i hexp
        rw [if_neg hexp]
    · rename_i hat
      rw [hat] at hmonthly
      cases hmonthly
  show ((s.resetDaily clock).1.resetMonthly clock).1 = s
  rw [hday, hmonth]

theorem advance_loaded (m : Manager) (agentId : String) (clock : Clock) (c : Call)
    (s : BudgetState) :
    ∃ k ≤ 1, (m.advance agentId clock)^[k] (some s, m.loaded agentId clock c s) =
      (some (s.maybeReset clock).1, m.proceed agentId (s.maybeReset clock).1 c) := by
  unfold Manager.loaded
  cases h : (s.maybeReset clock).2 with
  | true => exact ⟨1, le_rfl, rfl⟩
  | false => exact ⟨0, Nat.zero_le 1, by rw [maybeReset_of_unchanged h]; rfl⟩

/-- **What a call goes on with**: the row as `get_state` returns it, which is also the row
that is stored. -/
theorem call_state (m : Manager) (agentId : String) (clock : Clock) (row : Option BudgetState)
    {c : Call} (hc : c.start = .query c) :
    ∃ k ≤ 3, (m.advance agentId clock)^[k] (row, c.start) =
      (some (stateAt agentId clock row), m.proceed agentId (stateAt agentId clock row) c) := by
  rw [hc]
  cases row with
  | some s =>
    obtain ⟨k, hk, h⟩ := advance_loaded m agentId clock c s
    refine ⟨k + 1, by omega, ?_⟩
    rw [Function.iterate_succ_apply]
    exact h
  | none =>
    obtain ⟨k, hk, h⟩ :=
      advance_loaded m agentId clock c { agentId := agentId }
    refine ⟨k + 2, by omega, ?_⟩
    rw [Function.iterate_succ_apply, Function.iterate_succ_apply]
    exact h

theorem call_eq {c : Call} (hc : c.start = .query c) {r : Option BudgetState} {o : Outcome}
    (h : (m.advance agentId clock)^[2] (some (stateAt agentId clock row),
      m.proceed agentId (stateAt agentId clock row) c) = (r, .done o)) :
    m.call agentId clock row c = (r, .done o) := by
  obtain ⟨k, hk, hstate⟩ := call_state m agentId clock row hc
  have hsplit : 5 = (3 - k) + (2 + k) := by omega
  rw [Manager.call, hsplit, Function.iterate_add_apply, Function.iterate_add_apply, hstate, h,
    advance_done]

end Call

/-! ## Restrictions -/

/-- The agent is under no restriction. -/
structure BudgetState.Free (s : BudgetState) : Prop where
  running : s.isPaused = false
  model : s.degradedModel = none

section Restrictions

variable {m : Manager} {agentId : String} {clock : Clock} {row : Option BudgetState}

theorem limitVerdict_of_under {period : String} {budget : BudgetConfig} {spent : ℚ}
    {limit : Option ℚ} (h : Manager.under limit spent = true) :
    m.limitVerdict period budget spent limit = none := by
  cases limit with
  | none => rfl
  | some l =>
    have hlt : spent < l := of_decide_eq_true h
    exact if_neg (not_le.2 hlt)

theorem verdict_of_within {s : BudgetState} (h : m.withinLimits agentId s = true) :
    m.verdict agentId s = .verdict true := by
  obtain ⟨hdaily, hmonthly⟩ := Bool.and_eq_true_iff.1 h
  simp only [Manager.verdict, limitVerdict_of_under hdaily, limitVerdict_of_under hmonthly]
  rfl

theorem stateAt_restrictions (agentId : String) (clock : Clock) (r : BudgetState) :
    (stateAt agentId clock (some r)).isPaused = r.isPaused ∧
      (stateAt agentId clock (some r)).degradedModel = r.degradedModel := by
  obtain ⟨dailyAt, monthlyAt, h⟩ := maybeReset_eq clock r
  have hstate : stateAt agentId clock (some r) = (r.maybeReset clock).1 := rfl
  rw [hstate, h]
  exact ⟨rfl, rfl⟩

theorem stateAt_none_free : (stateAt agentId clock none).Free := by
  obtain ⟨dailyAt, monthlyAt, h⟩ := maybeReset_eq clock ({ agentId := agentId } : BudgetState)
  have hstate : stateAt agentId clock none =
    (({ agentId := agentId } : BudgetState).maybeReset clock).1 := rfl
  rw [hstate, h]
  exact ⟨rfl, rfl⟩

theorem check_running (h : m.withinLimits agentId (stateAt agentId clock row) = true)
    (hrun : (stateAt agentId clock row).isPaused = false) :
    m.call agentId clock row .checkBudget =
      (some (stateAt agentId clock row), .done (.verdict true)) := by
  refine call_eq rfl ?_
  rw [Manager.proceed, Manager.check, if_neg (by simp [hrun]), verdict_of_within h]
  exact advance_done _ 2

/-- The check of a paused agent clears the pause, and the degraded model with it. -/
theorem check_paused (h : m.withinLimits agentId (stateAt agentId clock row) = true)
    (hpaused : (stateAt agentId clock row).isPaused = true) :
    ∃ r, m.call agentId clock row .checkBudget = (some r, .done (.verdict true)) ∧ r.Free := by
  have hverdict := verdict_of_within h
  generalize hs : stateAt agentId clock row = s at *
  have hcheck : m.proceed agentId s .checkBudget = .unpause s := by
    rw [Manager.proceed, Manager.check, if_pos hpaused]
    exact if_pos h
  cases hmodel : s.degradedModel with
  | none =>
    refine ⟨s.resumed, call_eq rfl ?_, ⟨rfl, rfl⟩⟩
    rw [hs, hcheck]
    show (m.advance agentId clock)^[1] (m.advance agentId clock (some s, .unpause s)) = _
    have hstep : m.advance agentId clock (some s, .unpause s) =
        (some s.resumed, .done (m.verdict agentId { s with isPaused := false })) := by
      simp [Manager.advance, Manager.step, hmodel]
    rw [hstep, advance_done]
    exact congrArg (fun o => (some s.resumed, Pc.done o)) hverdict
  | some model =>
    refine ⟨{ s with isPaused := false, degradedModel := none }, call_eq rfl ?_, ⟨rfl, rfl⟩⟩
    rw [hs, hcheck]
    show m.advance agentId clock (m.advance agentId clock (some s, .unpause s)) = _
    have hstep : m.advance agentId clock (some s, .unpause s) =
        (some s.resumed, .clearModel { s with isPaused := false, degradedModel := none }) := by
      simp [Manager.advance, Manager.step, hmodel]
    rw [hstep]
    exact congrArg (fun o => (some { s with isPaused := false, degradedModel := none },
      Pc.done o)) hverdict

end Restrictions

/-- **A restriction ends with its period unless it is a degradation.**  After any run of calls,
a check that finds the reset spending under both limits succeeds and leaves the agent neither
paused nor degraded, exactly if the agent was not degraded without being paused. -/
theorem restriction_lifted_iff (m : Manager) (agentId : String) (run : List (Call × Clock))
    (clock : Clock) :
    let row := runOps (m.serve agentId) none run
    m.withinLimits agentId (stateAt agentId clock row) = true →
      ((∃ r, m.call agentId clock row .checkBudget = (some r, .done (.verdict true)) ∧ r.Free) ↔
        ∀ r ∈ row, r.degradedModel.isSome → r.isPaused) := by
  intro row h
  cases hrow : row with
  | none =>
      rw [hrow] at h
      refine iff_of_true ⟨_, check_running h stateAt_none_free.running, stateAt_none_free⟩ ?_
      simp
  | some r =>
      rw [hrow] at h
      obtain ⟨hpause, hmodel⟩ := stateAt_restrictions agentId clock r
      cases hp : r.isPaused with
      | true => exact iff_of_true (check_paused h (hpause.trans hp)) (by simp [hp])
      | false =>
          rw [check_running h (hpause.trans hp)]
          constructor
          · rintro ⟨r', heq, hfree⟩ r'' hr'' hsome
            obtain rfl : r = r'' := Option.some.inj hr''
            obtain rfl : stateAt agentId clock (some r) = r' :=
              Option.some.inj (congrArg Prod.fst heq)
            rw [← hmodel, hfree.model] at hsome
            cases hsome
          · intro hall
            refine ⟨_, rfl, hpause.trans hp, hmodel.trans ?_⟩
            cases hd : r.degradedModel with
            | none => rfl
            | some model => simpa [hp] using hall r rfl (by rw [hd]; rfl)

/-- A time at which every period is over. -/
def nextMonth : Clock where
  expired := fun _ => true
  nextDaily := "2026-02-02 00:00:00"
  nextMonthly := "2026-03-01 00:00:00"

/-- The day after, a paused agent is free again. -/
theorem restriction_lifted_nextMonth :
    ∃ r, tenDollars.call "atlas" nextMonth
      (runOps (tenDollars.serve "atlas") none [(.updateSpending 12, morning)]) .checkBudget =
        (some r, .done (.verdict true)) ∧ r.Free :=
  (restriction_lifted_iff tenDollars "atlas" [(.updateSpending 12, morning)] nextMonth
    (by decide +kernel)).2 (by decide +kernel)

/-- The same limit, with a switch to the fallback model. -/
def degrading : Manager := { tenDollars with system :=
  { tenDollars.system with onExceeded := .degrade } }

/-- The spending of the month before is forgotten, and the agent stays on the fallback model. -/
theorem degradation_outlives_period :
    let row := runOps (degrading.serve "atlas") none [(.updateSpending 12, morning)]
    degrading.withinLimits "atlas" (stateAt "atlas" nextMonth row) = true ∧
      ((degrading.call "atlas" nextMonth row .checkBudget).1.bind BudgetState.degradedModel) =
        some "local" := by
  decide +kernel

/-! ## The rows of all agents -/

/-- The table `budget_state`: at most one row for each agent. -/
structure BudgetTable where
  rows : List BudgetState
  nodup : (rows.map BudgetState.agentId).Nodup

namespace BudgetTable

variable (m : Manager) (t : BudgetTable)

/-- Before anything was spent. -/
def empty : BudgetTable := ⟨[], List.nodup_nil⟩

/-- The row of an agent. -/
def row (agentId : String) : Option BudgetState := Table.get BudgetState.agentId t.rows agentId

/-- `INSERT OR REPLACE`. -/
def put (r : BudgetState) : BudgetTable where
  rows := Table.upsert BudgetState.agentId r.agentId r (fun _ => r) t.rows
  nodup := by
    unfold Table.upsert
    split
    · have hkeys : (Table.modify BudgetState.agentId r.agentId (fun _ => r) t.rows).map
          BudgetState.agentId = t.rows.map BudgetState.agentId := by
        rw [Table.modify, List.map_map]
        refine List.map_congr_left fun old _ => ?_
        by_cases h : old.agentId = r.agentId <;> simp [h]
      rw [hkeys]
      exact t.nodup
    · rename_i hnone
      rw [List.map_append, List.map_singleton]
      refine List.nodup_append.2 ⟨t.nodup, List.pairwise_singleton _ _, ?_⟩
      rintro a ha b hb rfl
      rw [List.mem_singleton] at hb
      exact hnone (Table.get_isSome_iff.2 (hb ▸ ha))

/-- A call on one of the agents. -/
def serve (c : String × Call × Clock) : BudgetTable :=
  match (m.call c.1 c.2.2 (t.row c.1) c.2.1).1 with
  | none => t
  | some r => t.put r

/-- `get_summary` of an agent. -/
def agentSummary (clock : Clock) (agentId : String) : Option BudgetSummary :=
  match (m.call agentId clock (t.row agentId) .getSummary).2 with
  | .done (.summary s) => some s
  | _ => none

/-- `get_summary` without an agent: the sums of the stored columns. -/
def globalSummary : BudgetSummary where
  dailySpent := (t.rows.map BudgetState.dailySpent).sum
  dailyLimit := m.dailyAmount m.system
  monthlySpent := (t.rows.map BudgetState.monthlySpent).sum
  monthlyLimit := m.monthlyAmount m.system
  totalSpent := (t.rows.map BudgetState.totalSpent).sum

/-- A column added up over the summaries of all agents that have a row. -/
def summed (clock : Clock) (column : BudgetSummary → ℚ) : ℚ :=
  (t.rows.map fun r => ((t.agentSummary m clock r.agentId).map column).getD 0).sum

end BudgetTable

section Summary

variable {m : Manager} {clock : Clock} {t : BudgetTable}

theorem BudgetTable.agentSummary_eq {r : BudgetState} (hr : r ∈ t.rows) :
    t.agentSummary m clock r.agentId = some (m.summary r.agentId (r.maybeReset clock).1) := by
  have hrow : t.row r.agentId = some r := Table.get_eq_some_of_mem t.nodup hr
  have hcall : m.call r.agentId clock (t.row r.agentId) .getSummary =
      (some (stateAt r.agentId clock (t.row r.agentId)),
        .done (.summary (m.summary r.agentId (stateAt r.agentId clock (t.row r.agentId))))) :=
    call_eq rfl (advance_done _ 2)
  rw [BudgetTable.agentSummary, hcall, hrow]
  rfl

/-- A column of the summaries that a reset changes only where a period is over. -/
theorem BudgetTable.summed_eq {column : BudgetSummary → ℚ} {spent : BudgetState → ℚ}
    {lapsed : BudgetState → Bool} (t : BudgetTable)
    (h : ∀ r, column (m.summary r.agentId (r.maybeReset clock).1) =
      if lapsed r then 0 else spent r) :
    t.summed m clock column + ((t.rows.filter lapsed).map spent).sum = (t.rows.map spent).sum := by
  have hsummed : t.summed m clock column =
      (t.rows.map fun r => if lapsed r then 0 else spent r).sum := by
    refine congrArg List.sum (List.map_congr_left fun r hr => ?_)
    rw [t.agentSummary_eq hr, Option.map_some, Option.getD_some, h]
  rw [hsummed]
  induction t.rows with
  | nil => simp
  | cons r rows ih =>
    rw [List.map_cons, List.sum_cons, List.filter_cons, List.map_cons, List.sum_cons, ← ih]
    cases lapsed r with
    | true =>
      simp only [if_true, List.map_cons, List.sum_cons]
      ring
    | false =>
      simp only [Bool.false_eq_true, if_false]
      ring

end Summary

/-- **The global summary agrees with the agents' summaries unless a period is over.**  For
every table and every instant: every agent that has a row gets a summary; the totals agree;
and the daily and monthly spending agree exactly if the spending that rows still carry from a
day or month that is over adds up to nothing. -/
theorem summary_agrees_iff (m : Manager) (t : BudgetTable) (clock : Clock) :
    (∀ r ∈ t.rows, (t.agentSummary m clock r.agentId).isSome) ∧
      (((t.globalSummary m).dailySpent = t.summed m clock BudgetSummary.dailySpent ∧
        (t.globalSummary m).monthlySpent = t.summed m clock BudgetSummary.monthlySpent ∧
        (t.globalSummary m).totalSpent = t.summed m clock BudgetSummary.totalSpent) ↔
      ((t.rows.filter (BudgetState.dayOver clock)).map BudgetState.dailySpent).sum = 0 ∧
        ((t.rows.filter (BudgetState.monthOver clock)).map BudgetState.monthlySpent).sum = 0) := by
  have hreset := maybeReset_eq clock
  have hday : t.summed m clock BudgetSummary.dailySpent +
      ((t.rows.filter (BudgetState.dayOver clock)).map BudgetState.dailySpent).sum =
        (t.globalSummary m).dailySpent := by
    refine t.summed_eq fun r => ?_
    obtain ⟨dailyAt, monthlyAt, h⟩ := hreset r
    rw [h]
    rfl
  have hmonth : t.summed m clock BudgetSummary.monthlySpent +
      ((t.rows.filter (BudgetState.monthOver clock)).map BudgetState.monthlySpent).sum =
        (t.globalSummary m).monthlySpent := by
    refine t.summed_eq fun r => ?_
    obtain ⟨dailyAt, monthlyAt, h⟩ := hreset r
    rw [h]
    rfl
  have htotal : t.summed m clock BudgetSummary.totalSpent +
      ((t.rows.filter fun _ => false).map BudgetState.totalSpent).sum =
        (t.globalSummary m).totalSpent := by
    refine t.summed_eq fun r => ?_
    obtain ⟨dailyAt, monthlyAt, h⟩ := hreset r
    rw [h]
    rfl
  have hnone : ((t.rows.filter fun _ => false).map BudgetState.totalSpent).sum = 0 := by simp
  rw [hnone, add_zero] at htotal
  refine ⟨fun r hr => by rw [t.agentSummary_eq hr]; rfl, ?_⟩
  constructor
  · rintro ⟨h1, h2, -⟩
    exact ⟨by linarith, by linarith⟩
  · rintro ⟨h1, h2⟩
    exact ⟨by linarith, by linarith, htotal.symm⟩

/-- One agent that spent twelve dollars. -/
def spentTwelve : BudgetTable := BudgetTable.empty.serve tenDollars ("atlas", .updateSpending 12, morning)

/-- The month after, the agent's summary has forgotten them and the global one has not. -/
theorem summary_disagrees_nextMonth :
    (spentTwelve.globalSummary tenDollars).dailySpent = 12 ∧
      spentTwelve.summed tenDollars nextMonth BudgetSummary.dailySpent = 0 ∧
      (spentTwelve.globalSummary tenDollars).monthlySpent = 12 ∧
      spentTwelve.summed tenDollars nextMonth BudgetSummary.monthlySpent = 0 := by
  decide +kernel

end XpressClaw.Budget
