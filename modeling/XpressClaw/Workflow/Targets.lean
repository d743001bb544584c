import XpressClaw.Workflow.KeepsCallbacks

/-!
# Goto targets in every run

A run of the program is any number of calls on one database, each of them a thread,
in any interleaving of their transactions (`calls`).  A thread that is never scheduled
again has crashed, and a later `recover` is one more thread.

* `calls_wellFormed` — the invariant holds in every state of every run.
* `targets_resolve_in_every_run` — whatever `resolve_goto` is asked for within a
  definition that passed `validate` leads to a step or a flow of it, and no lookup of
  the control flow takes its "not found" branch.
-/

namespace XpressClaw

open Lib

/-- A database before anything ran: validated workflows are saved, and that is all. -/
structure Db.Initial (env : Env) (db : Db) : Prop where
  workflows : ∀ w ∈ db.workflows, w.definition.validate env = .ok ()
  instances : db.instances = []
  executions : db.executions = []
  log : db.log = []

theorem Db.Initial.wellFormed {env : Env} {db : Db} (h : db.Initial env) : WellFormed db where
  workflows := fun w hw => Definition.wellTargeted_of_validate (h.workflows w hw)
  instances := by simp [h.instances]
  executions := by simp [h.executions]
  instanceIds := by simp [h.instances]
  executionIds := by simp [h.executions]
  instancesNodup := by simp [h.instances]
  executionsNodup := by simp [h.executions]
  log := by simp [h.log]

/-- Several calls on one database, after some of their transactions. -/
def calls (host : Host) (fuel : ℕ) (db : Db) (ops : List Op) (schedule : List ℕ) :
    Sys Db Err Unit :=
  Sys.sched ⟨db, ops.map (Op.prog host fuel)⟩ schedule

/-- **The invariant of every run.** -/
theorem calls_wellFormed {host : Host} (fuel : ℕ) {db : Db} (hdb : db.Initial host.toEnv)
    (ops : List Op) (schedule : List ℕ) : WellFormed (calls host fuel db ops schedule).store := by
  have hinv : Rules.all.Inv db := ⟨hdb.wellFormed, Nat.zero_le _, trivial⟩
  have hok : ∀ p ∈ ops.map (Op.prog host fuel), p.Ok Rules.all.protocol db fun r t =>
      ∀ a, r = .ok a → anything a t := by
    intro p hp
    obtain ⟨op, -, rfl⟩ := List.mem_map.1 hp
    exact keeps_iff.1 (Op.prog_keeps host fuel op hinv)
  exact (Sys.sched_ok (c := ⟨db, ops.map (Op.prog host fuel)⟩) Rules.all.shared hinv hok
    schedule).2.1.wf

/-- A state of the database that some run leads to. -/
def Reachable (host : Host) (db : Db) : Prop :=
  ∃ db₀ fuel ops schedule, db₀.Initial host.toEnv ∧ db = (calls host fuel db₀ ops schedule).store

theorem Reachable.wellFormed {host : Host} {db : Db} (h : Reachable host db) : WellFormed db := by
  obtain ⟨db₀, fuel, ops, schedule, h0, rfl⟩ := h
  exact calls_wellFormed fuel h0 ops schedule

/-- **Validated definitions never dangle.**  In every interleaving of any calls, every
target `resolve_goto` was asked for resolves within its definition, and no lookup of
the control flow failed. -/
theorem targets_resolve_in_every_run (host : Host) (fuel : ℕ) {db : Db}
    (hdb : db.Initial host.toEnv) (ops : List Op) (schedule : List ℕ) :
    (∀ d flow target, Event.goto d flow target ∈ (calls host fuel db ops schedule).store.log →
      d.Resolves flow target) ∧
    ∀ message, Event.notFound message ∉ (calls host fuel db ops schedule).store.log := by
  have hlog := (calls_wellFormed fuel hdb ops schedule).log
  exact ⟨fun d flow target h => hlog _ h, fun message h => hlog _ h⟩

/-! ## A run -/

namespace Json

/-- A JSON string literal. -/
def quote (s : String) : String :=
  "\"" ++ String.ofList (s.toList.flatMap fun c =>
    if c = '"' || c = '\\' then [ '\\', c] else if c = '\n' then [ '\\', 'n'] else [c]) ++ "\""

mutual
/-- The text of a value whose numbers are whole. -/
def write : Json → String
  | null => "null"
  | bool b => if b then "true" else "false"
  | num q => toString q.num
  | str s => quote s
  | arr xs => "[" ++ writeItems xs ++ "]"
  | obj fs => "\x7b" ++ writeFields fs ++ "\x7d"

/-- The items of an array. -/
def writeItems : List Json → String
  | [] => ""
  | [x] => write x
  | x :: y :: xs => write x ++ "," ++ writeItems (y :: xs)

/-- The fields of an object. -/
def writeFields : List (String × Json) → String
  | [] => ""
  | [(k, x)] => quote k ++ ":" ++ write x
  | (k, x) :: f :: fs => quote k ++ ":" ++ write x ++ "," ++ writeFields (f :: fs)
end

end Json

/-- A host that writes JSON and whose texts are never JSON themselves, and that has no cron jobs
and no tasks to roll up. -/
def plainHost : Host where
  parseJson := fun _ => none
  renderJson := Json.write
  toF64 := id
  cronError := fun _ => some "unsupported"
  normalizeStartAfter := fun _ => .error "unsupported"
  parseRfc3339 := fun _ => none
  parseDbTimestamp := fun _ => none
  dbTimestamp := fun _ => ""
  cronDue := fun _ _ _ => false
  now := 0
  needsUserInput := fun _ => false
  completeIfReady := fun _ w => (false, w)
  cancelAttempts := fun _ _ w => w

/-- A workflow that jumps over its first step into another flow. -/
def jumping : Definition where
  name := "jumping"
  flows :=
    [("main", ⟨[{ id := "over", stepType := .jump, target := some "flow rest step last" }]⟩),
     ("rest", ⟨[{ id := "first", agent := some "coder" }, { id := "last", agent := some "coder" }]⟩)]

/-- The workflow is saved, and its agent exists. -/
def jumpingDb : Db where
  workflows := [{ id := 0, name := "jumping", definition := jumping }]
  work := { agents := [{ id := "coder" }] }
  nextId := 1

theorem jumpingDb_initial : jumpingDb.Initial plainHost.toEnv where
  workflows := by
    intro w hw
    obtain rfl := List.mem_singleton.1 hw
    rfl
  instances := rfl
  executions := rfl
  log := rfl

/-- One start of the workflow asks for its target, which resolves. -/
theorem jumping_target_resolves :
    ((calls plainHost 5 jumpingDb [.start 0 (.obj []) {} none]
        (List.replicate 40 0)).store.log.any fun ev => match ev with
      | .goto _ flow target => flow = "main" && target = "flow rest step last"
      | _ => false) = true ∧
    ∀ d flow target, Event.goto d flow target ∈
      (calls plainHost 5 jumpingDb [.start 0 (.obj []) {} none] (List.replicate 40 0)).store.log →
      d.Resolves flow target :=
  ⟨by decide +kernel, (targets_resolve_in_every_run plainHost 5 jumpingDb_initial _ _).1⟩

end XpressClaw
