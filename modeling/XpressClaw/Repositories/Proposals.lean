import XpressClaw.Lib.Runs
import XpressClaw.Lib.Threads
import XpressClaw.Repositories.Selection

/-!
# Proposals beside choices

A proposal writes back the selection that it read in an earlier transaction, and the user may
select a repository or clear the choice between the two.

* `Call.prog` — a call, as one of the threads of a system.
* `History` — the same calls in stages, with what was chosen last.
* `History.step_sys` — a step of the history is a commit of the system.
* `ChoiceKept` — the selection is always the last choice, and no proposal changes it.
* `choice_kept_iff` — the schedules of which that is so.
-/

namespace XpressClaw.Repositories

open Lib

/-! ## Calls -/

/-- The calls of the Agent and of the user. -/
inductive Call where
  | select (relativePath : String)
  | clear
  | propose (relativePath : String)
  | proposeClear
deriving DecidableEq

def Call.IsProposal : Call → Prop
  | select _ | clear => False
  | propose _ | proposeClear => True

def Call.prog (w : Workspace) : Call → Prog Db Error Unit
  | select p => (Repositories.select w p).bind fun _ => .ret (.ok ())
  | clear => (Repositories.clear w).bind fun _ => .ret (.ok ())
  | propose p => (Repositories.propose w p).bind fun _ => .ret (.ok ())
  | proposeClear => (Repositories.proposeClear w).bind fun _ => .ret (.ok ())

/-- What a call writes, once its path is authorized. -/
inductive Action where
  | choose (d : DesiredSelection) (h : Allowed d.relativePath d.repositoryIdentity d.mode)
  | propose (path : Option String) (mode : SelectionMode) (h : PendingAllowed path (some mode))

namespace Action

/-- The transaction of a call that has read a row. -/
def write (stored : Option StoredSelection) : Action → Db → Except Error (Bool × Db)
  | choose d _ =>
      persistSelection d none none (stored.map (·.boundaryKey) ≠ some d.boundaryKey) .any
  | propose path mode _ => persistSelection (currentSelection stored) path (some mode) false .any

/-- The selection that is chosen. -/
def choice : Action → Option BoundaryKey
  | choose d _ => some d.boundaryKey
  | propose _ _ _ => none

end Action

def Call.action (w : Workspace) : Call → Except Error Action
  | select p => (w.authorize p).map fun c =>
      .choose ⟨some c.relativePath, some c.identity, .manual⟩ ⟨Or.inl rfl, Or.inl (by simp)⟩
  | clear => .ok (.choose ⟨none, none, .cleared⟩ ⟨Or.inr rfl, Or.inr rfl⟩)
  | propose p => (w.authorize p).map fun c =>
      .propose (some c.relativePath) .manual (Or.inr (Or.inl ⟨rfl, rfl⟩))
  | proposeClear => .ok (.propose none .cleared (Or.inr (Or.inr ⟨rfl, rfl⟩)))

/-- What is left of a call when it has written. -/
def afterWrite (w : Workspace) : Prog Db Error Unit := (inspect w).bind fun _ => .ret (.ok ())

/-- What is left of a call when it has read. -/
def Action.prog (w : Workspace) (stored : Option StoredSelection) (a : Action) :
    Prog Db Error Unit :=
  (Prog.tx (a.write stored)).bind fun _ => afterWrite w

section Write

variable {w : Workspace} {a : Action} {c : Call}

theorem persistSelection_ok {d : DesiredSelection} {path : Option String}
    {mode : Option SelectionMode} (h : Allowed d.relativePath d.repositoryIdentity d.mode)
    (hp : PendingAllowed path mode) (invalidate : Bool) (db : Db) :
    ∃ db', persistSelection d path mode invalidate .any db = .ok (true, db') ∧
      boundaryKey db'.selection = d.boundaryKey := by
  unfold persistSelection
  simp only [Bool.not_true, Bool.false_eq_true, if_false]
  rw [dif_pos ⟨h, hp⟩]
  split <;> exact ⟨_, rfl, rfl⟩

theorem currentSelection_spec (stored : Option StoredSelection) :
    (currentSelection stored).boundaryKey = boundaryKey stored ∧
      Allowed (currentSelection stored).relativePath (currentSelection stored).repositoryIdentity
        (currentSelection stored).mode := by
  cases stored with
  | none => exact ⟨rfl, Or.inr rfl, Or.inr rfl⟩
  | some s => exact ⟨rfl, s.allowed⟩

/-- **One write.**  A choice stores what is chosen, and a proposal stores what it has read. -/
theorem write_ok (a : Action) (stored : Option StoredSelection) (db : Db) :
    ∃ db', a.write stored db = .ok (true, db') ∧
      boundaryKey db'.selection = a.choice.getD (boundaryKey stored) := by
  cases a with
  | choose d h => exact persistSelection_ok h (Or.inl ⟨rfl, rfl⟩) _ db
  | propose path mode h =>
    obtain ⟨hkey, hallowed⟩ := currentSelection_spec stored
    obtain ⟨db', hok, hrow⟩ := persistSelection_ok hallowed h false db
    exact ⟨db', hok, hrow.trans hkey⟩

/-- A call reads the row, if its path is authorized. -/
theorem prog_of_action (h : c.action w = .ok a) :
    c.prog w = .act id fun db => a.prog w db.selection := by
  cases c with
  | select p =>
    cases hp : w.authorize p with
    | error e => simp [Call.action, hp, Except.map] at h
    | ok candidate =>
      simp only [Call.action, hp, Except.map, Except.ok.injEq] at h
      subst h
      simp only [Call.prog, select, hp, stored, Prog.read, Prog.bind_eq, Prog.act_bind,
        Prog.ret_ok_bind, Prog.bind_assoc]
      rfl
  | clear =>
    simp only [Call.action, Except.ok.injEq] at h
    subst h
    have hchanged (previous : Option StoredSelection) (k : BoundaryKey) :
        (previous.map fun s => decide (s.boundaryKey ≠ k)).getD true =
          decide (previous.map (·.boundaryKey) ≠ some k) := by
      cases previous <;> simp
    simp only [Call.prog, clear, hchanged, stored, Prog.read, Prog.bind_eq, Prog.act_bind,
      Prog.ret_ok_bind, Prog.bind_assoc]
    rfl
  | propose p =>
    cases hp : w.authorize p with
    | error e => simp [Call.action, hp, Except.map] at h
    | ok candidate =>
      simp only [Call.action, hp, Except.map, Except.ok.injEq] at h
      subst h
      simp only [Call.prog, propose, hp, stored, Prog.read, Prog.bind_eq, Prog.act_bind,
        Prog.ret_ok_bind, Prog.bind_assoc]
      rfl
  | proposeClear =>
    simp only [Call.action, Except.ok.injEq] at h
    subst h
    simp only [Call.prog, proposeClear, stored, Prog.read, Prog.bind_eq, Prog.act_bind,
      Prog.ret_ok_bind, Prog.bind_assoc]
    rfl

/-- A call whose path is not authorized ends before it reads. -/
theorem prog_of_error {e : Error} (h : c.action w = .error e) : c.prog w = .ret (.error e) := by
  cases c with
  | select p =>
    cases hp : w.authorize p with
    | error e' =>
      simp only [Call.action, hp, Except.map, Except.error.injEq] at h
      subst h
      simp only [Call.prog, select, hp]
      rfl
    | ok candidate => simp [Call.action, hp, Except.map] at h
  | clear => cases h
  | propose p =>
    cases hp : w.authorize p with
    | error e' =>
      simp only [Call.action, hp, Except.map, Except.error.injEq] at h
      subst h
      simp only [Call.prog, propose, hp]
      rfl
    | ok candidate => simp [Call.action, hp, Except.map] at h
  | proposeClear => cases h

end Write

/-! ## Histories -/

/-- How far a call has got.  With the row that it read goes what was chosen last then. -/
inductive Stage where
  | start (c : Call)
  | read (a : Action) (stored : Option StoredSelection) (seen : BoundaryKey)
  | written
  | ended

def Stage.prog (w : Workspace) : Stage → Prog Db Error Unit
  | start c => c.prog w
  | read a stored _ => a.prog w stored
  | written => afterWrite w
  | ended => .ret (.ok ())

/-- The database, the calls and what the user has chosen last. -/
structure History where
  db : Db
  calls : List Stage
  chosen : BoundaryKey

namespace History

/-- Nothing is chosen yet but what is stored. -/
def start (db : Db) (calls : List Call) : History :=
  ⟨db, calls.map .start, boundaryKey db.selection⟩

/-- The next transaction of one call. -/
def step (w : Workspace) (h : History) (i : ℕ) : History :=
  match h.calls[i]? with
  | some (.start c) =>
      match c.action w with
      | .ok a => { h with calls := h.calls.set i (.read a h.db.selection h.chosen) }
      | .error _ => h
  | some (.read a stored _) =>
      match a.write stored h.db with
      | .ok (_, db) => ⟨db, h.calls.set i .written, a.choice.getD h.chosen⟩
      | .error _ => h
  | some .written => { h with calls := h.calls.set i .ended }
  | _ => h

/-- The database and the programs. -/
def sys (w : Workspace) (h : History) : Sys Db Error Unit := ⟨h.db, h.calls.map (·.prog w)⟩

/-- A proposal is written while the choice is still the one it has seen. -/
def InTime (h : History) (i : ℕ) : Prop :=
  match h.calls[i]? with
  | some (.read (.propose _ _ _) _ seen) => seen = h.chosen
  | _ => True

end History

section Step

variable {w : Workspace} {h : History} {i : ℕ}

theorem History.sys_set (db : Db) (stage : Stage) (chosen : BoundaryKey) :
    (History.mk db (h.calls.set i stage) chosen).sys w =
      ⟨db, (h.sys w).threads.set i (stage.prog w)⟩ := by
  simp only [History.sys, List.map_set]

/-- **A step of the history is a commit of the system.** -/
theorem History.step_sys (w : Workspace) (h : History) (i : ℕ) :
    (h.step w i).sys w = (h.sys w).step i := by
  have hget : (h.sys w).threads[i]? = (h.calls[i]?).map (·.prog w) := List.getElem?_map
  rw [Sys.step, hget, History.step]
  cases hi : h.calls[i]? with
  | none => rfl
  | some stage =>
    cases stage with
    | start c =>
      cases ha : c.action w with
      | ok a =>
        simp only [Option.map_some, Stage.prog, prog_of_action ha, ha]
        exact History.sys_set _ _ _
      | error e => simp only [Option.map_some, Stage.prog, prog_of_error ha, ha]
    | read a stored seen =>
      obtain ⟨db, hok, -⟩ := write_ok a stored h.db
      simp only [Option.map_some, Stage.prog, Action.prog, Prog.tx, Prog.act_bind, hok]
      simp only [History.sys_set, Stage.prog]
      simp [hok, Except.map, History.sys]
    | written =>
      simp only [Option.map_some, Stage.prog, afterWrite, inspect, Prog.read, Prog.act_bind]
      exact History.sys_set _ _ _
    | ended => rfl

theorem History.run_sys (w : Workspace) (h : History) (schedule : List ℕ) :
    (runOps (History.step w) h schedule).sys w = (h.sys w).sched schedule := by
  induction schedule generalizing h with
  | nil => rfl
  | cons i schedule ih => rw [runOps_cons, ih, History.step_sys, Sys.sched_cons]

/-- What is stored is the last choice. -/
def History.Current (h : History) : Prop := boundaryKey h.db.selection = h.chosen

/-- A row that was read has the choice of that time. -/
def History.Seen (h : History) : Prop :=
  ∀ a stored seen, Stage.read a stored seen ∈ h.calls → boundaryKey stored = seen

/-- **One step.**  What is stored stays the last choice exactly when a proposal is in time. -/
theorem History.step_current (hc : h.Current) (hs : h.Seen) :
    h.InTime i ↔ (h.step w i).Current := by
  unfold History.InTime History.step
  cases hi : h.calls[i]? with
  | none => exact iff_of_true trivial hc
  | some stage =>
    cases stage with
    | start c =>
      refine iff_of_true trivial ?_
      dsimp only
      cases c.action w <;> exact hc
    | read a stored seen =>
      obtain ⟨db, hok, hkey⟩ := write_ok a stored h.db
      have hseen := hs a stored seen (List.mem_of_getElem? hi)
      simp only [hok, History.Current, hkey, hseen]
      cases a with
      | choose d hd => exact iff_of_true trivial rfl
      | propose path mode hp => exact Iff.rfl
    | written => exact iff_of_true trivial hc
    | ended => exact iff_of_true trivial hc

theorem History.step_seen (hc : h.Current) (hs : h.Seen) : (h.step w i).Seen := by
  have hset {stage : Stage} {calls : List Stage} (hcalls : calls = h.calls.set i stage)
      (hstage : ∀ a stored seen, stage = .read a stored seen → boundaryKey stored = seen) :
      ∀ a stored seen, Stage.read a stored seen ∈ calls → boundaryKey stored = seen := by
    intro a stored seen hmem
    rw [hcalls] at hmem
    rcases List.mem_or_eq_of_mem_set hmem with hmem | heq
    · exact hs a stored seen hmem
    · exact hstage a stored seen heq.symm
  unfold History.step
  cases hi : h.calls[i]? with
  | none => exact hs
  | some stage =>
    cases stage with
    | start c =>
      dsimp only
      cases c.action w with
      | ok a =>
        refine hset rfl fun a stored seen heq => ?_
        cases heq
        exact hc
      | error e => exact hs
    | read a stored seen =>
      obtain ⟨db, hok, -⟩ := write_ok a stored h.db
      simp only [hok]
      exact hset rfl fun a stored seen heq => by cases heq
    | written => exact hset rfl fun a stored seen heq => by cases heq
    | ended => exact hs

end Step

/-! ## Proposals leave the choice alone -/

/-- A call that is, or was, a proposal. -/
def Stage.Proposes : Stage → Prop
  | start c => c.IsProposal
  | read a _ _ => a.choice = none
  | written | ended => True

section Proposes

variable {w : Workspace} {h : History} {i j : ℕ}

theorem choice_of_isProposal {c : Call} {a : Action} (hc : c.IsProposal)
    (ha : c.action w = .ok a) : a.choice = none := by
  cases c with
  | select p => cases hc
  | clear => cases hc
  | propose p =>
    cases hp : w.authorize p with
    | error e => simp [Call.action, hp, Except.map] at ha
    | ok candidate =>
      simp only [Call.action, hp, Except.map, Except.ok.injEq] at ha
      subst ha
      rfl
  | proposeClear =>
    cases ha
    rfl

/-- A call stays a proposal. -/
theorem History.step_proposes (hi : ∀ stage, h.calls[i]? = some stage → stage.Proposes) :
    ∀ stage, (h.step w j).calls[i]? = some stage → stage.Proposes := by
  have hset {new : Stage} (hj : j < h.calls.length) (hnew : i = j → new.Proposes) :
      ∀ stage, (h.calls.set j new)[i]? = some stage → stage.Proposes := by
    intro stage hstage
    by_cases hij : i = j
    · subst hij
      rw [List.getElem?_set_self hj] at hstage
      cases hstage
      exact hnew rfl
    · rw [List.getElem?_set_ne (Ne.symm hij)] at hstage
      exact hi stage hstage
  unfold History.step
  cases hj : h.calls[j]? with
  | none => exact hi
  | some stage =>
    have hlt : j < h.calls.length := (List.getElem?_eq_some_iff.1 hj).1
    cases stage with
    | start c =>
      dsimp only
      cases ha : c.action w with
      | ok a =>
        refine hset hlt fun hij => ?_
        subst hij
        exact choice_of_isProposal (hi _ hj) ha
      | error e => exact hi
    | read a stored seen =>
      obtain ⟨db, hok, -⟩ := write_ok a stored h.db
      simp only [hok]
      exact hset hlt fun _ => trivial
    | written => exact hset hlt fun _ => trivial
    | ended => exact hi

/-- The step of a proposal is no choice. -/
theorem History.chosen_step (hi : ∀ stage, h.calls[i]? = some stage → stage.Proposes) :
    (h.step w i).chosen = h.chosen := by
  unfold History.step
  cases hstage : h.calls[i]? with
  | none => rfl
  | some stage =>
    cases stage with
    | start c =>
      dsimp only
      cases c.action w <;> rfl
    | read a stored seen =>
      obtain ⟨db, hok, -⟩ := write_ok a stored h.db
      have hnone : a.choice = none := hi _ hstage
      simp only [hok, hnone, Option.getD_none]
    | written => rfl
    | ended => rfl

end Proposes

/-! ## The choice is kept -/

/-- The system of some calls. -/
def system (w : Workspace) (db : Db) (calls : List Call) : Sys Db Error Unit :=
  ⟨db, calls.map (·.prog w)⟩

/-- The history of some calls. -/
def history (w : Workspace) (db : Db) (calls : List Call) (schedule : List ℕ) : History :=
  runOps (History.step w) (.start db calls) schedule

/-- Whenever a transaction has committed, the selection is what the user has chosen last, and no
transaction of a proposal changes it. -/
def ChoiceKept (w : Workspace) (db : Db) (calls : List Call) (schedule : List ℕ) : Prop :=
  (∀ before, before <+: schedule →
    boundaryKey ((system w db calls).sched before).store.selection =
      (history w db calls before).chosen) ∧
  ∀ before i c, before ++ [i] <+: schedule → calls[i]? = some c → c.IsProposal →
    boundaryKey ((system w db calls).sched (before ++ [i])).store.selection =
      boundaryKey ((system w db calls).sched before).store.selection

section Kept

variable (w : Workspace) (db : Db) (calls : List Call) (schedule : List ℕ)

theorem store_history :
    ((system w db calls).sched schedule).store = (history w db calls schedule).db := by
  have hstart : (History.start db calls).sys w = system w db calls := by
    simp only [History.sys, History.start, system, List.map_map]
    rfl
  rw [← hstart, ← History.run_sys]
  rfl

/-- **The choice is kept** exactly when every proposal is written while the user's last choice is
still the one that was the last when it read. -/
theorem choice_kept_iff : ChoiceKept w db calls schedule ↔
    Along (History.step w) History.InTime (.start db calls) schedule := by
  have hseen : (History.start db calls).Seen := by
    intro a stored seen hmem
    obtain ⟨c, -, heq⟩ := List.mem_map.1 hmem
    cases heq
  have hcurrent : (History.start db calls).Current := rfl
  rw [along_iff_prefixes (I := History.Current) (J := History.Seen)
    (fun h i hc hs => History.step_seen hc hs) (fun h i hc hs => History.step_current hc hs)
    hcurrent hseen]
  simp only [ChoiceKept, store_history]
  refine ⟨fun h => h.1, fun hkept => ⟨hkept, ?_⟩⟩
  intro before i c hbefore hi hc
  have hproposes : ∀ stage, (history w db calls before).calls[i]? = some stage →
      stage.Proposes := by
    refine runOps_invariant
      (I := fun h : History => ∀ stage, h.calls[i]? = some stage → stage.Proposes)
      (fun h j hh => History.step_proposes hh) ?_ before
    intro stage hstage
    rw [History.start, List.getElem?_map, hi] at hstage
    cases hstage
    exact hc
  have hafter := hkept (before ++ [i]) hbefore
  have hprefix := hkept before ((List.prefix_append _ _).trans hbefore)
  unfold history
  rw [hafter, hprefix, runOps_concat]
  exact History.chosen_step hproposes

end Kept

/-- Two repositories, each at its own path. -/
def twoRepositories : Workspace where
  discovered := [⟨"clone", "/workspace/clone", "clone"⟩, ⟨"other", "/workspace/other", "other"⟩]
  truncated := false
  authorize p :=
    if p = "clone" then .ok ⟨"clone", "/workspace/clone", "clone"⟩
    else if p = "other" then .ok ⟨"other", "/workspace/other", "other"⟩
    else .error (.backend "repository path is unavailable")

/-- The user selects a repository between the two transactions of a proposal. -/
theorem overtaken_choice_not_kept :
    ¬ChoiceKept twoRepositories {} [.propose "clone", .select "other"] [0, 1, 1, 0] := by
  intro h
  have hkey := h.1 [0, 1, 1, 0] (List.prefix_refl _)
  revert hkey
  decide

end XpressClaw.Repositories
