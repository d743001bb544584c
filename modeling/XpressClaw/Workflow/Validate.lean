import Mathlib.Algebra.Group.Int.Defs
import Mathlib.Algebra.Group.Nat.Defs
import Mathlib.Algebra.GroupWithZero.Nat
import XpressClaw.Lib.Prog
import XpressClaw.Workflow.Definition

/-!
# Validating a workflow definition

`validate` of `definition.rs`, check by check and in the source's order, with its
error texts.  A definition it accepts is `WellTargeted`: step ids are distinct in
each flow, and every goto target of an executable step resolves in the definition.

* `wellTargeted_of_validate` — **accepted definitions are well targeted**, although
  validation walks into bodies and the lookups at run time do not.
* `WellTargeted.of_skeleton` — freezing agent selectors keeps a definition well
  targeted.
-/

namespace XpressClaw

open Lib

/-! ## Durations -/

/-- `str::parse::<i64>` on the characters of a text. -/
def parseI64 (cs : List Char) : Option ℤ :=
  let (neg, digits) := match cs with
    | '-' :: ds => (true, ds)
    | '+' :: ds => (false, ds)
    | ds => (false, ds)
  if digits = [] ∨ digits.any (fun c => !c.isDigit) then none
  else
    let n : ℤ := digits.foldl (fun acc c => acc * 10 + (c.toNat - '0'.toNat : ℕ)) (0 : ℕ)
    let v := if neg then -n else n
    if -(2 ^ 63) ≤ v ∧ v < 2 ^ 63 then some v else none

/-- The number of bytes of a character in UTF-8. -/
def utf8Len (c : Char) : ℕ := c.utf8Size

/-- The number of seconds of a unit. -/
def unitSeconds : Char → Option ℤ
  | 's' => some 1
  | 'm' => some 60
  | 'h' => some 3600
  | 'd' => some 86400
  | 'w' => some 604800
  | _ => none

/-- `chrono::Duration` holds at most `i64::MAX` milliseconds. -/
def maxDurationSeconds : ℤ := 9223372036854775

/-- The last second a `chrono` timestamp can hold. -/
def maxTimestampSeconds : ℤ := 8210266876799

/-- `parse_wait_duration`, in seconds.  `split_at` panics when the last character
is not a single byte. -/
def parseWaitDuration (env : Env) (value : String) : Except Err ℤ :=
  let cs := (Text.trim value).toList
  if (cs.map utf8Len).sum < 2 then
    .error (.workflow "use a positive duration such as 30m, 24h, or 14d")
  else match cs.getLast? with
    | none => .error (.workflow "use a positive duration such as 30m, 24h, or 14d")
    | some unit =>
        if utf8Len unit ≠ 1 then .error .panic
        else match parseI64 cs.dropLast with
          | none => .error (.workflow "use a whole number followed by s, m, h, d, or w")
          | some amount =>
              if amount ≤ 0 then .error (.workflow "duration must be greater than zero")
              else match unitSeconds unit with
                | none => .error (.workflow "unit must be s, m, h, d, or w")
                | some k =>
                    if maxDurationSeconds < amount * k then
                      .error (.workflow "duration is too large")
                    else if maxTimestampSeconds < env.now + amount * k then
                      .error (.workflow "duration exceeds the supported timestamp range")
                    else .ok (amount * k)

/-- `validate_command_cwd`. -/
def validateCommandCwd (cwd : String) : Except Err Unit :=
  if Text.isBlank cwd ∨ Text.contains cwd "\\" ∨ Text.contains cwd ":" ∨
      (Text.splitChar '/' cwd).contains ".." then
    .error (.workflow "command cwd must be a nonempty container path without '..', backslashes, or a drive prefix")
  else .ok ()

/-! ## Checks on steps -/

/-- Fail with a workflow error unless the condition holds. -/
def require (p : Prop) [Decidable p] (message : String) : Except Err Unit :=
  if p then .ok () else .error (.workflow message)

/-- Run a check on every element, in order. -/
def checkAll {α : Type} (check : α → Except Err Unit) : List α → Except Err Unit
  | [] => .ok ()
  | a :: as => do
      check a
      checkAll check as

/-- Run a check on an optional value. -/
def checkOption {α : Type} (check : α → Except Err Unit) : Option α → Except Err Unit
  | some a => check a
  | none => .ok ()

/-- An absent or blank text. -/
def blank? (s : Option String) : Bool := s.all Text.isBlank

namespace Definition

variable (d : Definition)

/-- `validate_agent_reference`. -/
def validateAgentReference (s : Step) (flow : String) (required : Bool) : Except Err Unit :=
  match (s.agent.map Text.trim).filter fun a => a ≠ "" with
  | none =>
      require (required = false)
        s!"{s.stepType.name} step '{s.id}' in flow '{flow}' is missing 'agent'"
  | some agent =>
      match agent.toList with
      | '@' :: rest =>
          let name := String.ofList rest
          if Text.contains name "." ∨ name = "" then
            .error (.workflow s!"step '{s.id}' in flow '{flow}' must reference an agent input as '@role'")
          else match d.input? name with
            | some input =>
                require (input.inputType = .agent)
                  s!"step '{s.id}' in flow '{flow}' references '@{name}', but that input is not type agent"
            | none => .error (.workflow
                s!"step '{s.id}' in flow '{flow}' references undeclared agent input '@{name}'")
      | _ => .ok ()

/-- `validate_goto_target`.  `ids` are the top-level ids of the flow at hand. -/
def validateGotoTarget (target : String) (ids : List String) (fromStep fromFlow : String) :
    Except Err Unit :=
  match Text.splitWhitespace target with
  | ["step", stepId] =>
      require (stepId ∈ ids)
        s!"goto in step '{fromStep}' (flow '{fromFlow}') references unknown step '{stepId}'"
  | ["flow", fname] =>
      require (fname ∈ d.flowNames)
        s!"goto in step '{fromStep}' (flow '{fromFlow}') references unknown flow '{fname}'"
  | ["flow", fname, "step", stepId] => do
      require (fname ∈ d.flowNames)
        s!"goto in step '{fromStep}' (flow '{fromFlow}') references unknown flow '{fname}'"
      match d.flow? fname with
      | some f =>
          require (stepId ∈ f.steps.map Step.id)
            s!"goto in step '{fromStep}' (flow '{fromFlow}') references unknown step '{stepId}' in flow '{fname}'"
      | none => .ok ()
  | ["workflow", _] => .ok ()
  | _ => .error (.workflow
      s!"invalid goto target '{target}' in step '{fromStep}' (flow '{fromFlow}')")

/-- The checks of a `when` step. -/
def validateWhen (s : Step) (ids : List String) (flow : String) : Except Err Unit := do
  require s.switchVar.isSome s!"when step '{s.id}' in flow '{flow}' is missing 'switch'"
  require (s.arms.getD [] ≠ []) s!"when step '{s.id}' in flow '{flow}' is missing 'arms'"
  checkAll (fun arm => checkOption (fun goto => d.validateGotoTarget goto ids s.id flow) arm.goto)
    (s.arms.getD [])

/-- The checks of a `command` step. -/
def validateCommand (env : Env) (s : Step) (flow : String) : Except Err Unit := do
  d.validateAgentReference s flow true
  require (blank? s.command = false) s!"command step '{s.id}' is missing 'command'"
  checkOption validateCommandCwd s.cwd
  let duration ← parseWaitDuration env (s.timeout.getD "5m")
  require (duration ≤ 86400) "command timeout must be at most 24h"
  require s.outputs.isNone "command outputs are fixed: passed, exit_code, stdout, stderr, signal, timed_out, stdout_truncated, stderr_truncated"

/-- The events a wait may name. -/
def waitEvents : List String :=
  ["github.pull_request.review", "github.pull_request.comment", "github.pull_request.activity"]

/-- The checks of a `wait` step. -/
def validateWait (env : Env) (s : Step) (ids : List String) (flow : String) : Except Err Unit := do
  d.validateAgentReference s flow true
  require (blank? s.event = false) s!"wait step '{s.id}' in flow '{flow}' is missing 'event'"
  let event := Text.trim (s.event.getD "")
  require (event ∈ waitEvents)
    s!"wait step '{s.id}' in flow '{flow}' uses unsupported event '{event}'"
  require (blank? s.resource = false) s!"wait step '{s.id}' in flow '{flow}' is missing 'resource'"
  checkOption (fun target => d.validateGotoTarget target ids s.id flow) s.onTimeout
  checkOption (fun timeout => match parseWaitDuration env timeout with
    | .ok _ => .ok ()
    | .error (.workflow m) => .error (.workflow
        s!"wait step '{s.id}' in flow '{flow}' has invalid timeout: {m}")
    | .error e => .error e) s.timeout

/-- Whether a step may stand in a loop or parallel body. -/
def isTaskStep (s : Step) : Bool := s.stepType = .step || s.stepType = .command

mutual
/-- The checks of one step, by its type. -/
def validateStep (env : Env) (ids : List String) (flow : String) : Step → Except Err Unit
  | s@(⟨_, ty, _, _, _, _, _, _, _, _, _, _, body, _, _, _, _, _⟩) =>
      match ty with
      | .when => d.validateWhen s ids flow
      | .loop => do
          require s.overVar.isSome s!"loop step '{s.id}' in flow '{flow}' is missing 'over'"
          require s.asVar.isSome s!"loop step '{s.id}' in flow '{flow}' is missing 'as'"
          match body.find? fun b => !isTaskStep b with
          | some b => .error (.workflow s!"loop step '{s.id}' in flow '{flow}' contains unsupported '{b.stepType.name}' step '{b.id}'; loop bodies currently accept agent and command steps only")
          | none => validateSteps env ids flow body
      | .parallel => do
          require (body ≠ [] ∧ body.length ≤ 16)
            s!"parallel step '{s.id}' must contain between 1 and 16 branches"
          require (∀ b ∈ body, isTaskStep b)
            s!"parallel step '{s.id}' accepts agent and command branches only"
          validateSteps env ids flow body
      | .command => d.validateCommand env s flow
      | .step => d.validateAgentReference s flow false
      | .continue_ =>
          require (blank? s.prompt = false)
            s!"continue step '{s.id}' in flow '{flow}' is missing 'prompt'"
      | .wait => d.validateWait env s ids flow
      | .jump => match s.target with
          | some target => d.validateGotoTarget target ids s.id flow
          | none => .error (.workflow s!"jump step '{s.id}' in flow '{flow}' is missing 'target'")
      | .sink => .ok ()
      | .other name => .error (.workflow
          s!"step '{s.id}' in flow '{flow}' has unsupported type '{name}'")

/-- `validate_steps`. -/
def validateSteps (env : Env) (ids : List String) (flow : String) : List Step → Except Err Unit
  | [] => .ok ()
  | s :: ss => do
      validateStep env ids flow s
      validateSteps env ids flow ss
end

/-! ## The whole definition -/

/-- The loop over the declared inputs; `primary` is the primary agent input met so
far. -/
def validateInputs : List (String × Input) → Option String → Except Err Unit
  | [], _ => .ok ()
  | (name, input) :: rest, primary => do
      require (Text.isBlank name = false) "workflow input names cannot be empty"
      require (name.toList.all fun c => c.isAlphanum || c == '_')
        s!"workflow input name '{name}' may contain only ASCII letters, numbers, and underscores"
      require (name ≠ "trigger") "workflow input name 'trigger' is reserved"
      checkOption (input.validateValue name) input.default_
      if input.primary then do
        require (input.inputType = .agent)
          s!"workflow input '{name}' can be primary only when its type is agent"
        match primary with
        | some existing => .error (.workflow
            s!"workflow agent inputs '{existing}' and '{name}' are both primary; choose one")
        | none => validateInputs rest (some name)
      else validateInputs rest primary

/-- A schedule's start: a one-shot time, or else a cron expression. -/
def validateStart (env : Env) (schedule : Schedule) : Except Err Unit :=
  match schedule.runAt with
  | some runAt => match env.normalizeStartAfter runAt with
      | .ok _ => .ok ()
      | .error e => .error (.workflow e)
  | none => match env.cronError (Text.trim schedule.cron) with
      | some e => .error (.workflow s!"invalid workflow schedule cron: {e}")
      | none => .ok ()

/-- The checks of a schedule. -/
def validateSchedule (env : Env) (schedule : Schedule) : Except Err Unit := do
  require (d.continuesSourceTask = false)
    "continue steps require a source task and cannot run from a cron schedule"
  require (Text.isBlank schedule.cron ≠ schedule.runAt.isNone)
    "workflow schedule requires exactly one of cron or run_at"
  validateStart env schedule
  let _ ← d.resolveInputs (Json.ofFields schedule.inputs)

/-- `collect_step_ids`: the first id that occurs twice in a flow is an error. -/
def checkIds (flow : String) : List String → List String → Except Err Unit
  | [], _ => .ok ()
  | id :: rest, seen => do
      require (id ∉ seen) s!"duplicate step ID '{id}' in flow '{flow}'"
      checkIds flow rest (id :: seen)

/-- `validate`. -/
def validate (env : Env) : Except Err Unit := do
  require (d.flows ≠ []) "workflow must have at least one flow"
  validateInputs d.inputs none
  checkOption (d.validateSchedule env) d.schedule
  checkAll (fun f => do
    checkIds f.1 (collectIds f.2.steps) []
    d.validateSteps env (f.2.steps.map Step.id) f.1 f.2.steps) d.flows

/-! ## What acceptance means -/

/-- A goto target leads to a step or a flow of the definition, or out of it. -/
def Resolves (flow target : String) : Prop :=
  match Text.splitWhitespace target with
  | ["step", stepId] => (d.stepIndex flow stepId).isSome
  | ["flow", fname] => (d.flow? fname).isSome
  | ["flow", fname, "step", stepId] => (d.stepIndex fname stepId).isSome
  | ["workflow", _] => True
  | _ => False

/-- The goto targets of a step, by its type. -/
def targets (s : Step) : List String :=
  match s.stepType with
  | .when => (s.arms.getD []).filterMap WhenArm.goto
  | .jump => [s.target.getD ""]
  | .wait => s.onTimeout.toList
  | _ => []

/-- What the engine relies on: distinct ids in each flow, every target of a
top-level step resolves, a parallel step has branches, and the type of a step is
known. -/
structure WellTargeted : Prop where
  nonempty : d.flows ≠ []
  ids_nodup : ∀ flow f, d.flow? flow = some f → (collectIds f.steps).Nodup
  resolves : ∀ flow f, d.flow? flow = some f → ∀ s ∈ f.steps, ∀ t ∈ targets s, d.Resolves flow t
  branches : ∀ flow f, d.flow? flow = some f → ∀ s ∈ f.steps, s.stepType = .parallel → s.body ≠ []

theorem require_ok {p : Prop} [Decidable p] {m : String} (h : require p m = .ok ()) : p := by
  unfold require at h
  split at h
  · assumption
  · cases h

theorem checkAll_ok {α : Type} {check : α → Except Err Unit} {l : List α}
    (h : checkAll check l = .ok ()) : ∀ a ∈ l, check a = .ok () := by
  induction l with
  | nil => simp
  | cons a l ih =>
    obtain ⟨⟨⟩, h1, h2⟩ := bind_ok h
    exact List.forall_mem_cons.2 ⟨h1, ih h2⟩

theorem checkIds_ok {flow : String} {l seen : List String} (h : checkIds flow l seen = .ok ()) :
    l.Nodup ∧ ∀ id ∈ l, id ∉ seen := by
  induction l generalizing seen with
  | nil => simp
  | cons id l ih =>
    obtain ⟨⟨⟩, h1, h2⟩ := bind_ok h
    obtain ⟨hnd, hseen⟩ := ih h2
    have hid : id ∉ seen := require_ok h1
    refine ⟨List.nodup_cons.2 ⟨fun hm => hseen id hm (List.mem_cons_self ..), hnd⟩, ?_⟩
    intro x hx
    rcases List.mem_cons.1 hx with rfl | hx
    · exact hid
    · exact fun hs => hseen x hx (List.mem_cons_of_mem _ hs)

variable {d}

theorem stepIndex_isSome {flow stepId : String} {f : Flow} (hf : d.flow? flow = some f)
    (h : stepId ∈ f.steps.map Step.id) : (d.stepIndex flow stepId).isSome := by
  obtain ⟨s, hs, rfl⟩ := List.mem_map.1 h
  rw [stepIndex, hf, Option.bind_some, List.findIdx?_isSome, List.any_eq_true]
  exact ⟨s, hs, by simp⟩

/-- A target that passes validation resolves, from the flow whose top-level ids it
was checked against. -/
theorem resolves_of_validateGotoTarget {target fromStep flow : String} {f : Flow}
    (hf : d.flow? flow = some f)
    (h : d.validateGotoTarget target (f.steps.map Step.id) fromStep flow = .ok ()) :
    d.Resolves flow target := by
  unfold validateGotoTarget at h
  unfold Resolves
  split at h
  · exact stepIndex_isSome hf (require_ok h)
  · exact d.flow?_isSome_iff.2 (require_ok h)
  · obtain ⟨⟨⟩, h1, h2⟩ := bind_ok h
    obtain ⟨g, hg⟩ := Option.isSome_iff_exists.1 (d.flow?_isSome_iff.2 (require_ok h1))
    rw [hg] at h2
    exact stepIndex_isSome hg (require_ok h2)
  · trivial
  · cases h

theorem resolves_of_validateStep {env : Env} {flow : String} {f : Flow} {s : Step}
    (hf : d.flow? flow = some f)
    (h : d.validateStep env (f.steps.map Step.id) flow s = .ok ()) :
    (∀ t ∈ targets s, d.Resolves flow t) ∧ (s.stepType = .parallel → s.body ≠ []) := by
  obtain ⟨id, ty, a, p, c, w, af, o, sw, ar, ov, as, body, tg, ev, rs, tm, ot⟩ := s
  simp only [validateStep] at h
  cases ty with
  | when =>
    refine ⟨fun t ht => ?_, by simp⟩
    obtain ⟨arm, harm, hgoto⟩ := List.mem_filterMap.1 ht
    obtain ⟨-, -, h⟩ := bind_ok h
    obtain ⟨-, -, h⟩ := bind_ok h
    have := checkAll_ok h arm harm
    rw [hgoto] at this
    exact resolves_of_validateGotoTarget hf this
  | jump =>
    refine ⟨fun t ht => ?_, by simp⟩
    cases tg with
    | none => cases h
    | some target =>
      obtain rfl : t = target := by simpa [targets] using ht
      exact resolves_of_validateGotoTarget hf h
  | wait =>
    refine ⟨fun t ht => ?_, by simp⟩
    obtain rfl : ot = some t := by simpa [targets] using ht
    unfold validateWait at h
    obtain ⟨-, -, h⟩ := bind_ok h
    obtain ⟨-, -, h⟩ := bind_ok h
    obtain ⟨-, -, h⟩ := bind_ok h
    obtain ⟨-, -, h⟩ := bind_ok h
    obtain ⟨⟨⟩, h, -⟩ := bind_ok h
    exact resolves_of_validateGotoTarget hf h
  | parallel =>
    refine ⟨by simp [targets], fun _ => ?_⟩
    obtain ⟨⟨⟩, h1, -⟩ := bind_ok h
    exact (require_ok h1).1
  | _ => exact ⟨by simp [targets], by simp⟩

theorem validateSteps_ok {env : Env} {ids : List String} {flow : String} {ss : List Step}
    (h : d.validateSteps env ids flow ss = .ok ()) :
    ∀ s ∈ ss, d.validateStep env ids flow s = .ok () := by
  induction ss with
  | nil => simp
  | cons s ss ih =>
    obtain ⟨⟨⟩, h1, h2⟩ := bind_ok h
    exact List.forall_mem_cons.2 ⟨h1, ih h2⟩

/-- **Accepted definitions are well targeted.** -/
theorem wellTargeted_of_validate {env : Env} (h : d.validate env = .ok ()) : d.WellTargeted := by
  obtain ⟨⟨⟩, hne, h⟩ := bind_ok h
  obtain ⟨-, -, h⟩ := bind_ok h
  obtain ⟨-, -, h⟩ := bind_ok h
  have hflow : ∀ flow f, d.flow? flow = some f → (collectIds f.steps).Nodup ∧
      ∀ s ∈ f.steps, d.validateStep env (f.steps.map Step.id) flow s = .ok () := by
    intro flow f hf
    obtain ⟨⟨⟩, h1, h2⟩ := bind_ok (checkAll_ok h _ (d.mem_flows_of_flow? hf))
    exact ⟨(checkIds_ok h1).1, validateSteps_ok h2⟩
  refine ⟨require_ok hne, fun flow f hf => (hflow flow f hf).1, ?_, ?_⟩
  · intro flow f hf s hs
    exact (resolves_of_validateStep hf ((hflow flow f hf).2 s hs)).1
  · intro flow f hf s hs
    exact (resolves_of_validateStep hf ((hflow flow f hf).2 s hs)).2

/-! ## Freezing keeps targets -/

variable {d' : Definition}

theorem resolves_skeleton (h : d'.skeleton = d.skeleton) (flow target : String) :
    d'.Resolves flow target ↔ d.Resolves flow target := by
  have hflow : ∀ name, (d'.flow? name).isSome = (d.flow? name).isSome := by
    intro name
    simpa using congrArg Option.isSome (flow?_skeleton h name)
  unfold Resolves
  split <;> simp [stepIndex_skeleton h, hflow]

theorem targets_skeleton (s : Step) : targets s.skeleton = targets s := by
  rw [Step.skeleton_eq]
  rfl

theorem collectIds_skeletons : ∀ ss : List Step, collectIds (skeletons ss) = collectIds ss := by
  refine (Step.nested_induction (M := fun s => s.skeleton.ids = s.ids)
    (L := fun ss => collectIds (skeletons ss) = collectIds ss) ?_ rfl ?_).2
  · intro s ih
    rw [Step.ids_eq, Step.ids_eq, Step.skeleton_eq]
    simp only [ih]
  · intro s ss hs hss
    rw [skeletons, collectIds, collectIds, hs, hss]

theorem flow?_of_skeleton (h : d'.skeleton = d.skeleton) {flow : String} {f' : Flow}
    (hf : d'.flow? flow = some f') : ∃ f, d.flow? flow = some f ∧
      skeletons f.steps = skeletons f'.steps := by
  have := flow?_skeleton h flow
  rw [hf, Option.map_some, eq_comm, Option.map_eq_some_iff] at this
  obtain ⟨f, hf, hs⟩ := this
  exact ⟨f, hf, congrArg Flow.steps hs⟩

theorem exists_mem_of_skeletons {ss ss' : List Step} (h : skeletons ss = skeletons ss')
    {s' : Step} (hs : s' ∈ ss') : ∃ s ∈ ss, s.skeleton = s'.skeleton := by
  rw [skeletons_eq_map, skeletons_eq_map] at h
  have hm : s'.skeleton ∈ ss.map Step.skeleton := h ▸ List.mem_map_of_mem hs
  simpa using hm

/-- Freezing agent selectors keeps a definition well targeted. -/
theorem WellTargeted.of_skeleton (hw : d.WellTargeted) (h : d'.skeleton = d.skeleton) :
    d'.WellTargeted where
  nonempty := by
    intro hnil
    have : d.skeleton = [] := by rw [← h, skeleton, hnil, List.map_nil]
    exact hw.nonempty (List.map_eq_nil_iff.1 this)
  ids_nodup := by
    intro flow f' hf'
    obtain ⟨f, hf, hs⟩ := flow?_of_skeleton h hf'
    rw [← collectIds_skeletons, ← hs, collectIds_skeletons]
    exact hw.ids_nodup flow f hf
  resolves := by
    intro flow f' hf' s' hs' t ht
    obtain ⟨f, hf, hs⟩ := flow?_of_skeleton h hf'
    obtain ⟨s, hs, heq⟩ := exists_mem_of_skeletons hs hs'
    rw [← targets_skeleton, ← heq, targets_skeleton] at ht
    exact (resolves_skeleton h flow t).2 (hw.resolves flow f hf s hs t ht)
  branches := by
    intro flow f' hf' s' hs' hty hbody
    obtain ⟨f, hf, hs⟩ := flow?_of_skeleton h hf'
    obtain ⟨s, hs, heq⟩ := exists_mem_of_skeletons hs hs'
    rw [Step.skeleton_eq, Step.skeleton_eq, Step.mk.injEq] at heq
    refine hw.branches flow f hf s hs (heq.2.1.trans hty) ?_
    have hb : skeletons s.body = skeletons s'.body := by tauto
    rw [hbody, skeletons, skeletons_eq_map, List.map_eq_nil_iff] at hb
    exact hb

theorem WellTargeted.findStep_of_stepAt (hw : d.WellTargeted) {flow : String} {i : ℕ} {s : Step}
    (h : d.stepAt flow i = some s) : d.findStep flow s.id = some s := by
  rw [stepAt, Option.bind_eq_some_iff] at h
  obtain ⟨f, hf, hs⟩ := h
  rw [findStep, hf, Option.bind_some]
  exact findStepInList_of_mem (hw.ids_nodup flow f hf) (List.mem_of_getElem? hs)

theorem WellTargeted.stepIndex_of_stepAt (hw : d.WellTargeted) {flow : String} {i : ℕ} {s : Step}
    (h : d.stepAt flow i = some s) : d.stepIndex flow s.id = some i := by
  rw [stepAt, Option.bind_eq_some_iff] at h
  obtain ⟨f, hf, hs⟩ := h
  obtain ⟨hlt, rfl⟩ := List.getElem?_eq_some_iff.1 hs
  have hnd := (hw.ids_nodup flow f hf).sublist (map_id_sublist_collectIds f.steps)
  rw [stepIndex, hf, Option.bind_some, List.findIdx?_eq_some_iff_getElem]
  refine ⟨hlt, by simp, fun j hj => ?_⟩
  have hne : (f.steps.map Step.id)[j]? ≠ (f.steps.map Step.id)[i]? := fun h => by
    have := (List.getElem?_inj (by simpa using hj.trans hlt) hnd).1 h
    omega
  simpa [List.getElem?_eq_getElem, hlt, hj.trans hlt] using hne

end Definition
end XpressClaw
