import Mathlib.Algebra.BigOperators.Group.List.Basic
import Mathlib.Data.Rat.Defs
import Mathlib.Algebra.Field.Rat
import XpressClaw.Lib.Text
import XpressClaw.Lib.Runs

/-!
# Budget enforcement

`budget/manager.rs` keeps one row of spending for each agent.  Every operation is a call
that runs on its own thread and touches the row in several database calls: `get_state`
reads the whole row and may write it back with expired periods reset, and what follows
writes it back again.  `Pc` is where a call stands, with the values it holds between two
database calls, and `Manager.step` is one database call.

Amounts are exact rationals.  The clock comes in with each step, and a database call does
not fail.  The request and token counts of a summary come from another table and are left
out.
-/

namespace XpressClaw.Budget

open Lib

/-! ## Configuration -/

/-- What happens when a budget is exceeded. -/
inductive OnExceeded where
  | pause
  | alert
  | degrade
  | stop
  deriving DecidableEq

/-- The budget of an agent or of the whole system. -/
structure BudgetConfig where
  daily : Option String := none
  monthly : Option String := none
  perTask : Option String := none
  onExceeded : OnExceeded := .pause
  fallbackModel : String := "local"
  warnAtPercent : ℕ := 80
  deriving DecidableEq

/-- The configuration a manager holds, and how it reads and writes amounts. -/
structure Manager where
  /-- The configured agents, each with its own budget if it has one. -/
  agents : List (String × Option BudgetConfig) := []
  /-- The budget of the system. -/
  system : BudgetConfig := {}
  /-- `str::parse` to an amount. -/
  parse : String → Option ℚ
  /-- An amount with two decimals. -/
  cents : ℚ → String

namespace Manager

variable (m : Manager)

/-- `parse_dollar_amount`: a text like `$20.00`. -/
def parseDollarAmount (s : String) : Option ℚ := m.parse (Text.trimStartMatches '$' (Text.trim s))

/-- `daily_amount`. -/
def dailyAmount (b : BudgetConfig) : Option ℚ := b.daily.bind m.parseDollarAmount

/-- `monthly_amount`. -/
def monthlyAmount (b : BudgetConfig) : Option ℚ := b.monthly.bind m.parseDollarAmount

/-- The budget of an agent; its own overrides the system's. -/
def effectiveBudget (agentId : String) : BudgetConfig :=
  ((m.agents.find? fun a => a.1 = agentId).bind Prod.snd).getD m.system

end Manager

/-! ## The row of an agent -/

/-- `BudgetState`. -/
structure BudgetState where
  agentId : String
  dailySpent : ℚ := 0
  dailyResetAt : Option String := none
  monthlySpent : ℚ := 0
  monthlyResetAt : Option String := none
  totalSpent : ℚ := 0
  isPaused : Bool := false
  pauseReason : Option String := none
  degradedModel : Option String := none
  deriving DecidableEq

/-- `BudgetSummary`, as far as it comes from the row and the configuration. -/
structure BudgetSummary where
  dailySpent : ℚ
  dailyLimit : Option ℚ
  monthlySpent : ℚ
  monthlyLimit : Option ℚ
  totalSpent : ℚ
  deriving DecidableEq

/-- What the code asks the clock for. -/
structure Clock where
  /-- Whether a stored reset time has come.  A text that is no time never has. -/
  expired : String → Bool
  /-- The next local midnight. -/
  nextDaily : String
  /-- The first of the next month. -/
  nextMonthly : String

namespace BudgetState

/-- The daily period of the row is over. -/
def dayOver (clock : Clock) (s : BudgetState) : Bool := s.dailyResetAt.any clock.expired

/-- The monthly period of the row is over. -/
def monthOver (clock : Clock) (s : BudgetState) : Bool := s.monthlyResetAt.any clock.expired

/-- The daily part of `maybe_reset`. -/
def resetDaily (clock : Clock) (s : BudgetState) : BudgetState × Bool :=
  match s.dailyResetAt with
  | some at_ =>
      if clock.expired at_ then
        ({ s with dailySpent := 0, dailyResetAt := some clock.nextDaily }, true)
      else (s, false)
  -- the first time: there is nothing to zero
  | none => ({ s with dailyResetAt := some clock.nextDaily }, true)

/-- The monthly part of `maybe_reset`. -/
def resetMonthly (clock : Clock) (s : BudgetState) : BudgetState × Bool :=
  match s.monthlyResetAt with
  | some at_ =>
      if clock.expired at_ then
        ({ s with monthlySpent := 0, monthlyResetAt := some clock.nextMonthly }, true)
      else (s, false)
  | none => ({ s with monthlyResetAt := some clock.nextMonthly }, true)

/-- Reset the counters whose period has expired; the flag says whether the row must be
saved. -/
def maybeReset (clock : Clock) (s : BudgetState) : BudgetState × Bool :=
  let daily := s.resetDaily clock
  let monthly := daily.1.resetMonthly clock
  (monthly.1, daily.2 || monthly.2)

/-- The row with a cost added to its counters. -/
def addCost (cost : ℚ) (s : BudgetState) : BudgetState :=
  { s with
    dailySpent := s.dailySpent + cost
    monthlySpent := s.monthlySpent + cost
    totalSpent := s.totalSpent + cost }

/-- What the `UPDATE` of `resume` leaves. -/
def resumed (s : BudgetState) : BudgetState :=
  { s with isPaused := false, pauseReason := none, degradedModel := none }

end BudgetState

/-! ## Calls -/

/-- The operations of the manager on an agent. -/
inductive Call where
  | updateSpending (cost : ℚ)
  | checkBudget
  | getSummary
  | resume

/-- What a call returns. -/
inductive Outcome where
  | state (s : BudgetState)
  | verdict (within : Bool)
  | summary (s : BudgetSummary)
  | resumed
  | failed (message : String)

/-- Where a call stands: the database call it makes next, with what it holds. -/
inductive Pc where
  /-- `get_state` selects the row. -/
  | query (call : Call)
  /-- `get_state` saves an empty row. -/
  | insert (call : Call)
  /-- `get_state` saves the row it has seen, with the expired periods reset. -/
  | reset (call : Call) (seen : BudgetState) (clock : Clock)
  /-- `update_spending` saves the row with the cost added. -/
  | spend (cost : ℚ) (state : BudgetState)
  /-- `handle_exceeded` pauses the agent. -/
  | pause (reason : String) (state : BudgetState)
  /-- `handle_exceeded` degrades the agent to its fallback model. -/
  | degrade (state : BudgetState)
  /-- `check_budget` resumes the agent. -/
  | unpause (state : BudgetState)
  /-- `check_budget` saves the row without its degraded model. -/
  | clearModel (state : BudgetState)
  /-- `resume` clears the flags. -/
  | lift
  | done (outcome : Outcome)

def Call.start : Call → Pc
  | .resume => .lift
  | call => .query call

namespace Manager

variable (m : Manager) (agentId : String)

/-- Spending is below a limit. -/
def under (limit : Option ℚ) (spent : ℚ) : Bool := limit.all fun l => spent < l

/-- One limit of `check_budget`. -/
def limitVerdict (period : String) (budget : BudgetConfig) (spent : ℚ) (limit : Option ℚ) :
    Option Outcome :=
  limit.bind fun l =>
    if l ≤ spent then
      some (if budget.onExceeded = .stop then
        .failed s!"{period} budget exceeded: ${m.cents spent} >= ${m.cents l}" else .verdict false)
    else none

/-- The end of `check_budget`. -/
def verdict (state : BudgetState) : Outcome :=
  let budget := m.effectiveBudget agentId
  ((m.limitVerdict "Daily" budget state.dailySpent (m.dailyAmount budget)).or
    (m.limitVerdict "Monthly" budget state.monthlySpent (m.monthlyAmount budget))).getD
    (.verdict true)

/-- The limit that `check_limits` finds exceeded; the monthly one is named last. -/
def exceeded (state : BudgetState) : Option String :=
  let budget := m.effectiveBudget agentId
  let daily := (m.dailyAmount budget).bind fun l =>
    if l ≤ state.dailySpent then some s!"Daily limit ${m.cents l} exceeded" else none
  let monthly := (m.monthlyAmount budget).bind fun l =>
    if l ≤ state.monthlySpent then some s!"Monthly limit ${m.cents l} exceeded" else none
  monthly.or daily

/-- `check_limits` and `handle_exceeded`, up to the next database call. -/
def checkLimits (state : BudgetState) : Pc :=
  match m.exceeded agentId state with
  | none => .done (.state state)
  | some reason =>
      match (m.effectiveBudget agentId).onExceeded with
      | .pause => .pause reason state
      | .alert => .done (.state state)
      | .degrade => .degrade state
      | .stop => .done (.failed reason)

/-- `check_budget`, once it has the state. -/
def check (state : BudgetState) : Pc :=
  let budget := m.effectiveBudget agentId
  let reason := state.pauseReason.getD "budget exceeded"
  if state.isPaused then
    if under (m.dailyAmount budget) state.dailySpent &&
        under (m.monthlyAmount budget) state.monthlySpent then .unpause state
    else .done (.failed s!"Agent {agentId} is paused: {reason}")
  else .done (m.verdict agentId state)

/-- `get_summary`, once it has the state. -/
def summary (state : BudgetState) : BudgetSummary :=
  let budget := m.effectiveBudget agentId
  { dailySpent   := state.dailySpent
    dailyLimit   := m.dailyAmount budget
    monthlySpent := state.monthlySpent
    monthlyLimit := m.monthlyAmount budget
    totalSpent   := state.totalSpent }

/-- What a call does with the state that `get_state` returns. -/
def proceed (state : BudgetState) : Call → Pc
  | .updateSpending cost => .spend cost state
  | .checkBudget => m.check agentId state
  | .getSummary => .done (.summary (m.summary agentId state))
  | .resume => .lift

/-- `get_state`, once it has a row. -/
def loaded (clock : Clock) (call : Call) (state : BudgetState) : Pc :=
  if (state.maybeReset clock).2 then .reset call state clock else m.proceed agentId state call

/-- One database call. -/
def step (clock : Clock) (row : Option BudgetState) : Pc → Option BudgetState × Pc
  | .query call =>
      match row with
      | none => (row, .insert call)
      | some state => (row, m.loaded agentId clock call state)
  | .insert call => (some { agentId }, m.loaded agentId clock call { agentId })
  | .reset call seen at_ =>
      let state := (seen.maybeReset at_).1
      (some state, m.proceed agentId state call)
  | .spend cost state => (some (state.addCost cost), m.checkLimits agentId (state.addCost cost))
  | .pause reason state =>
      (row.map fun r => { r with isPaused := true, pauseReason := some reason },
        .done (.state state))
  | .degrade state =>
      (row.map fun r => { r with degradedModel := some (m.effectiveBudget agentId).fallbackModel },
        .done (.state state))
  | .unpause state =>
      let state := { state with isPaused := false }
      (row.map BudgetState.resumed,
        if state.degradedModel.isSome then .clearModel { state with degradedModel := none }
        else .done (m.verdict agentId state))
  | .clearModel state => (some state, .done (m.verdict agentId state))
  | .lift => (row.map BudgetState.resumed, .done .resumed)
  | .done outcome => (row, .done outcome)

end Manager

/-! ## Any number of callers -/

/-- What has been booked, newest first. -/
inductive Entry where
  | spent (cost : ℚ)
  | newDay
  | newMonth
  deriving DecidableEq

/-- What a database call books. -/
def Pc.books : Pc → List Entry
  | .spend cost _ => [.spent cost]
  | .reset _ seen clock =>
      (if seen.dayOver clock then [.newDay] else []) ++
        (if seen.monthOver clock then [.newMonth] else [])
  | _ => []

/-- The row of the agent, the calls under way, and what has been booked so far. -/
structure Ledger where
  row : Option BudgetState := none
  entries : List Entry := []
  calls : List Pc

/-- The start: no row, no call has made a database call. -/
def Ledger.start (calls : List Call) : Ledger := { calls := calls.map Call.start }

/-- One of the calls makes its next database call, at some time. -/
def Ledger.step (m : Manager) (agentId : String) (c : Ledger) (turn : ℕ × Clock) : Ledger :=
  match c.calls[turn.1]? with
  | none => c
  | some pc =>
      let r := m.step agentId turn.2 c.row pc
      { row := r.1, entries := pc.books ++ c.entries, calls := c.calls.set turn.1 r.2 }

end XpressClaw.Budget
