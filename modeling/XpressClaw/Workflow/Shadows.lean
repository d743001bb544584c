import XpressClaw.Workflow.Holes

/-!
# Shadowing the trigger payload

`build_context` starts from `trigger.payload` and lays the variables of the definition, the fields
of the trigger data and the outputs of the run over it.  What is laid over last wins, so a name
`trigger` in any of them takes the payload away.

* `payload_iff` — when a context still has the payload, exactly.
* `payload_in_every_run` — a definition with no variable, step or loop named `trigger` keeps it
  through every run on trigger data without such a field.
* `trigger_shadowed` — trigger data with such a field, and a variable with that name, do not.
-/

namespace XpressClaw

open Lib Context

/-! ## One context -/

/-- What is laid over the payload, if anything is. -/
def shadow (triggerData : Json) (globals outputs : Vars) : Option Json :=
  Vars.get? (Vars.extend (Vars.extend (Vars.extend [] globals) (triggerData.asObject.getD []))
    outputs) "trigger"

theorem resolve_payload (ctx : Json) :
    resolveVariable "trigger.payload" ctx =
      (ctx.get? "trigger").bind fun v => v.get? "payload" := by
  have hpath : Text.splitChar '.' (Text.trimStartMatches '@' "trigger.payload") =
      ["trigger", "payload"] := by decide +kernel
  rw [resolveVariable, hpath]
  simp [follow]

theorem get?_extend_or (vs fs : Vars) (k : String) :
    Vars.get? (Vars.extend vs fs) k = (Vars.get? (Vars.extend [] fs) k).or (Vars.get? vs k) := by
  induction fs generalizing vs with
  | nil => simp [Vars.extend, Vars.get?]
  | cons f fs ih =>
    rw [Vars.extend_cons, Vars.extend_cons, ih (Vars.insert vs f.1 f.2),
      ih (Vars.insert [] f.1 f.2), Vars.get?_insert, Vars.get?_insert, Option.or_assoc]
    congr 1
    split <;> simp [Vars.get?]

theorem trigger_of_context (triggerData : Json) (globals outputs : Vars) :
    (buildContext triggerData globals outputs).get? "trigger" =
      (shadow triggerData globals outputs).or (some (.obj [("payload", triggerData)])) := by
  have hlayers : ∀ vs : Vars, Vars.get? (Vars.extend (Vars.extend (Vars.extend vs globals)
      (triggerData.asObject.getD [])) outputs) "trigger" =
      (Vars.get? (Vars.extend [] outputs) "trigger").or
        ((Vars.get? (Vars.extend [] (triggerData.asObject.getD [])) "trigger").or
          ((Vars.get? (Vars.extend [] globals) "trigger").or (Vars.get? vs "trigger"))) := by
    intro vs
    rw [get?_extend_or (Vars.extend (Vars.extend vs globals) _) outputs,
      get?_extend_or (Vars.extend vs globals), get?_extend_or vs globals]
  have hget : ∀ vs : Vars, Json.get? "trigger" (.obj vs) = Vars.get? vs "trigger" := fun _ => rfl
  rw [buildContext, hget, shadow, hlayers, hlayers, Option.or_assoc, Option.or_assoc,
    Option.or_assoc]
  rfl

/-- **When a context still has the payload.** -/
theorem payload_iff (triggerData : Json) (globals outputs : Vars) :
    resolveVariable "trigger.payload" (buildContext triggerData globals outputs) =
        some triggerData ↔
      ∀ v, shadow triggerData globals outputs = some v → v.get? "payload" = some triggerData := by
  rw [resolve_payload, trigger_of_context]
  cases shadow triggerData globals outputs with
  | none => simp [Json.get?]
  | some v => simp

theorem get?_eq_none_of_notMem {vs : Vars} {k : String} (h : ∀ v ∈ vs, v.1 ≠ k) :
    Vars.get? vs k = none := by
  rw [Vars.get?, Option.map_eq_none_iff, List.find?_eq_none]
  intro v hv
  simpa using h v hv

theorem shadow_eq_none {triggerData : Json} {globals outputs : Vars}
    (hg : ∀ v ∈ globals, v.1 ≠ "trigger") (ht : triggerData.get? "trigger" = none)
    (ho : ∀ v ∈ outputs, v.1 ≠ "trigger") : shadow triggerData globals outputs = none := by
  have hfields : Vars.get? (triggerData.asObject.getD []) "trigger" = none := by
    cases triggerData with
    | obj fs => exact ht
    | _ => rfl
  rw [shadow, Vars.get?_extend_of_none (get?_eq_none_of_notMem ho),
    Vars.get?_extend_of_none hfields, Vars.get?_extend_of_none (get?_eq_none_of_notMem hg)]
  rfl

/-! ## Every run -/

/-- No variable, no step and no loop of the definition is named `trigger`. -/
def Definition.LeavesTrigger (d : Definition) : Prop :=
  "trigger" ∉ d.globals.map Prod.fst ∧ "trigger" ∉ d.stepNames ∧ "trigger" ∉ d.loopVars

instance (d : Definition) : Decidable d.LeavesTrigger := inferInstanceAs (Decidable (_ ∧ _ ∧ _))

theorem Definition.LeavesTrigger.notMem {d : Definition} (h : d.LeavesTrigger) :
    "trigger" ∉ d.names := by
  obtain ⟨h1, h2, h3⟩ := h
  simp only [Definition.names, List.mem_append, h1, h2, h3, false_or]
  decide +kernel

theorem payload_of_allows {d : Definition} (h : d.LeavesTrigger) {triggerData : Json}
    (ht : triggerData.get? "trigger" = none) {vars : Vars} (hv : d.Allows vars) :
    resolveVariable "trigger.payload" (buildContext triggerData d.globals vars) =
      some triggerData := by
  have hne : ∀ k ∈ d.names, k ≠ "trigger" := fun k hk heq => h.notMem (heq ▸ hk)
  have hnone : shadow triggerData d.globals vars = none :=
    shadow_eq_none (fun v hv => hne v.1 (Definition.mem_names_of_globals hv)) ht
      fun w hw => hne w.1 (hv w hw)
  rw [payload_iff, hnone]
  simp

/-- **The payload stays.**  In every state of every run, an instance whose definition has nothing
named `trigger`, and whose trigger data has no such field, finds its trigger data under
`trigger.payload`. -/
theorem payload_in_every_run (host : Host) (fuel : ℕ) {db : Db} (hdb : db.Initial host.toEnv)
    (ops : List Op) (schedule : List ℕ) {i : Instance}
    (hi : i ∈ (calls host fuel db ops schedule).store.instances) {d : Definition}
    (hd : i.definition = some d) (hnames : d.LeavesTrigger)
    (ht : i.triggerData.get? "trigger" = none) :
    resolveVariable "trigger.payload" (buildContext i.triggerData d.globals i.variableStore) =
      some i.triggerData := by
  exact payload_of_allows hnames ht ((calls_wellFormed fuel hdb ops schedule).allows hi hd)

/-! ## A run that keeps it -/

/-- A workflow with a variable and two steps. -/
def reporting : Definition where
  name := "reporting"
  globals := [("team", .str "docs")]
  flows := [("main", ⟨[
    { id := "write", agent := some "coder", prompt := some "Write about \x7b\x7bpayload\x7d\x7d" },
    { id := "check", agent := some "coder", prompt := some "Check for \x7b\x7bteam\x7d\x7d" }]⟩)]

/-- The workflow is saved, and its agent exists. -/
def reportingDb : Db where
  workflows := [{ id := 0, name := "reporting", definition := reporting }]
  work := { agents := [{ id := "coder" }] }
  nextId := 1

theorem reportingDb_initial : reportingDb.Initial plainHost.toEnv where
  workflows := by
    intro w hw
    obtain rfl := List.mem_singleton.1 hw
    rfl
  instances := rfl
  executions := rfl
  log := rfl

/-- What the run is started on: one of the fields is called `payload`. -/
def reportingTrigger : Json := .obj [("payload", .str "the release"), ("write", .str "later")]

/-- The workflow is started, and its first step is completed. -/
def reportingCalls : List Op :=
  [.start 0 reportingTrigger {} none, .taskCompleted 2 "completed" "a draft"]

def reportingSchedule : List ℕ := List.replicate 40 0 ++ List.replicate 40 1

def reportingRun : Db := (calls plainHost 5 reportingDb reportingCalls reportingSchedule).store

/-- The run has a field called `payload`, a variable, and an output that takes the place of the
other field. -/
theorem reporting_has_payload : ∃ i ∈ reportingRun.instances, ∃ d, i.definition = some d ∧
    d.globals = [("team", .str "docs")] ∧ i.triggerData = reportingTrigger ∧
    resolveVariable "write.output" (buildContext i.triggerData d.globals i.variableStore) =
      some (.str "a draft") ∧
    resolveVariable "trigger.payload" (buildContext i.triggerData d.globals i.variableStore) =
      some i.triggerData := by
  have hrow : ∃ i ∈ reportingRun.instances, i.triggerData = reportingTrigger ∧
      (i.definition.any fun d => decide d.LeavesTrigger && decide (d.globals = reporting.globals) &&
        decide (resolveVariable "write.output" (buildContext i.triggerData d.globals
          i.variableStore) = some (.str "a draft"))) = true := by decide +kernel
  obtain ⟨i, hi, ht, hany⟩ := hrow
  have hrun := hi
  unfold reportingRun at hrun
  cases hd : i.definition with
  | none => simp [hd] at hany
  | some d =>
      simp only [hd, Option.any_some, Bool.and_eq_true, decide_eq_true_eq] at hany
      obtain ⟨⟨hleaves, hglobals⟩, houtput⟩ := hany
      have hfield : i.triggerData.get? "trigger" = none := by
        rw [ht]
        decide +kernel
      exact ⟨i, hi, d, hd, hglobals, ht, houtput, payload_in_every_run plainHost 5
        reportingDb_initial reportingCalls reportingSchedule hrun hd hleaves hfield⟩

/-! ## Two runs that lose it -/

/-- A workflow with a variable that has the name of the payload's parent. -/
def shadowing : Definition where
  name := "shadowing"
  globals := [("trigger", .str "mine")]
  flows := [("main", ⟨[{ id := "first", agent := some "coder" }]⟩)]

def shadowingDb : Db where
  workflows := [{ id := 0, name := "shadowing", definition := shadowing }]
  work := { agents := [{ id := "coder" }] }
  nextId := 1

theorem shadowingDb_initial : shadowingDb.Initial plainHost.toEnv where
  workflows := by
    intro w hw
    obtain rfl := List.mem_singleton.1 hw
    rfl
  instances := rfl
  executions := rfl
  log := rfl

/-- Some instance does not find its trigger data. -/
def Db.losesPayload (db : Db) : Bool :=
  db.instances.any fun i => i.definition.any fun d =>
    resolveVariable "trigger.payload" (buildContext i.triggerData d.globals i.variableStore) ≠
      some i.triggerData

/-- One start of a workflow. -/
def startRun (db : Db) (trigger : Json) : Db :=
  (calls plainHost 5 db [.start 0 trigger {} none] (List.replicate 40 0)).store

/-- Both definitions pass `validate`.  The first run is on trigger data with a field `trigger`, as
the fields of the trigger data are variables too; in the second a variable is called so. -/
theorem trigger_shadowed :
    jumpingDb.Initial plainHost.toEnv ∧
      (startRun jumpingDb (.obj [("trigger", .obj [("worker", .str "coder")])])).losesPayload ∧
      shadowingDb.Initial plainHost.toEnv ∧
      (startRun shadowingDb (.obj [])).losesPayload :=
  ⟨jumpingDb_initial, by decide +kernel, shadowingDb_initial, by decide +kernel⟩

end XpressClaw
