import XpressClaw.Workflow.Json

/-!
# Variable contexts, templates and switches

What a workflow step reads: `context.rs` builds one JSON object out of the
trigger payload, the definition's variables and the outputs of earlier steps,
and renders `{{path}}` and `@path` references against it; `condition.rs`
evaluates the `switch` of a `when` step.  What `serde_json`, `croner` and
`chrono` do comes in through `Env`.
-/

namespace XpressClaw

open Lib

/-- The errors the modelled code returns.  `panic` is a thread that panicked. -/
inductive Err where
  | workflow (message : String)
  | workflowNotFound (id : ℕ)
  | instanceNotFound (id : ℕ)
  | scheduleChanged
  | conversation (message : String)
  | conversationNotFound (id : String)
  | agentNotFound (name : String)
  | task (message : String)
  | taskNotFound (id : ℕ)
  | projectNotFound (id : String)
  | project (message : String)
  | projectAccess (message : String)
  | database (message : String)
  | panic
  deriving DecidableEq

/-- `Error::to_string`. -/
def Err.text : Err → String
  | .workflow m => s!"workflow error: {m}"
  | .workflowNotFound id => s!"workflow not found: {id}"
  | .instanceNotFound id => s!"workflow instance not found: {id}"
  | .scheduleChanged => "workflow schedule changed before dispatch"
  | .conversation m => s!"conversation error: {m}"
  | .conversationNotFound id => s!"conversation not found: {id}"
  | .agentNotFound n => s!"agent not found: {n}"
  | .task m => s!"task error: {m}"
  | .taskNotFound id => s!"task not found: {id}"
  | .projectNotFound id => s!"project not found: {id}"
  | .project m => s!"project error: {m}"
  | .projectAccess m => s!"project access denied: {m}"
  | .database m => s!"database error: {m}"
  | .panic => "panic"

/-- What the workflow code takes from libraries and from the clock. -/
structure Env where
  /-- `serde_json::from_str`. -/
  parseJson : String → Option Json
  /-- `serde_json::to_string`. -/
  renderJson : Json → String
  /-- `Number::as_f64`: the double nearest to a JSON number. -/
  toF64 : ℚ → ℚ
  /-- The error of `croner::Cron::parse`, if it rejects the expression. -/
  cronError : String → Option String
  /-- `tasks::planning::normalize_start_after` on a given text. -/
  normalizeStartAfter : String → Except String String
  /-- `DateTime::parse_from_rfc3339`, in milliseconds since the epoch. -/
  parseRfc3339 : String → Option ℤ
  /-- `NaiveDateTime::parse_from_str` on a column of the database, in milliseconds. -/
  parseDbTimestamp : String → Option ℤ
  /-- The text of a time in seconds, as it is written to such a column. -/
  dbTimestamp : ℕ → String
  /-- Whether the first occurrence of a cron expression after a time is not later than
  another one; both in milliseconds. -/
  cronDue : String → ℤ → ℤ → Bool
  /-- The wall clock, in seconds since the epoch. -/
  now : ℕ

namespace Context

/-- Build the context from trigger data, global variables, and step outputs. -/
def buildContext (triggerData : Json) (globalVars stepOutputs : Vars) : Json :=
  let ctx : Vars := [("trigger", .obj [("payload", triggerData)])]
  let ctx := Vars.extend ctx globalVars
  let ctx := Vars.extend ctx (triggerData.asObject.getD [])
  .obj (Vars.extend ctx stepOutputs)

/-- Follow a dotted path into a value. -/
def follow : List String → Json → Option Json
  | [], v => some v
  | p :: ps, v => (v.get? p).bind (follow ps)

/-- Resolve a variable reference like `@classify.intent` or `trigger.payload.text`. -/
def resolveVariable (expr : String) (ctx : Json) : Option Json :=
  follow (Text.splitChar '.' (Text.trimStartMatches '@' expr)) ctx

/-- Convert a JSON value to the text inserted into a template. -/
def valueToString (env : Env) : Json → String
  | .str s => s
  | .bool b => if b then "true" else "false"
  | .null => "null"
  | v => env.renderJson v

/-- The first occurrence of `p`: what stands before it and what stands after it. -/
def findSub (p : List Char) : List Char → Option (List Char × List Char)
  | [] => if p.isEmpty then some ([], []) else none
  | c :: cs =>
      if p.isPrefixOf (c :: cs) then some ([], (c :: cs).drop p.length)
      else (findSub p cs).map fun r => (c :: r.1, r.2)

/-- The loop of `render_brace_placeholders` on what remains of the template.  Each
round consumes characters, so `fuel` never runs out when it starts above the
length of the template. -/
def renderBraces (env : Env) (ctx : Json) : Nat → List Char → List Char
  | 0, remaining => remaining
  | fuel + 1, remaining =>
      match findSub ['{', '{'] remaining with
      | none => remaining
      | some (before, afterOpen) =>
          match findSub ['}', '}'] afterOpen with
          | none => remaining
          | some (inner, rest) =>
              let path := Text.trimStartMatches '@' (Text.trim (String.ofList inner))
              let text := match resolveVariable path ctx with
                | some v => (valueToString env v).toList
                | none => ['{', '{'] ++ inner ++ ['}', '}']
              before ++ text ++ renderBraces env ctx fuel rest

def isIdentStart (c : Char) : Bool := c.isAlphanum || c == '_'

def isIdentChar (c : Char) : Bool := c.isAlphanum || c == '_' || c == '.'

/-- The loop of `render_at_references`.  A reference is `@` and the identifier
characters behind it, less trailing dots. -/
def renderAt (env : Env) (ctx : Json) : Nat → List Char → List Char
  | 0, cs => cs
  | _ + 1, [] => []
  | fuel + 1, c :: cs =>
      if c = '@' ∧ (cs.head?.any isIdentStart) then
        let path := ((cs.takeWhile isIdentChar).reverse.dropWhile (· == '.')).reverse
        let rest := cs.drop path.length
        if path.isEmpty then '@' :: renderAt env ctx fuel rest
        else
          let text := match resolveVariable (String.ofList path) ctx with
            | some v => (valueToString env v).toList
            | none => '@' :: path
          text ++ renderAt env ctx fuel rest
      else c :: renderAt env ctx fuel cs

/-- Render a template, replacing `{{var.path}}` first and `@var.path` in the result. -/
def renderTemplate (env : Env) (template : String) (ctx : Json) : String :=
  let braced := renderBraces env ctx (template.toList.length + 1) template.toList
  String.ofList (renderAt env ctx (braced.length + 1) braced)

end Context

namespace Condition

open Context

/-- A string comparison; `default` matches everything. -/
def evaluateMatch (matchValue actualValue : String) : Bool :=
  matchValue = "default" || matchValue = actualValue

/-- One operand of a numeric switch. -/
def operand (env : Env) (expr : String) (ctx : Json) (token : String) : Except Err ℚ :=
  let value := if Text.startsWith token "@" then resolveVariable token ctx
    else env.parseJson token
  match value with
  | some (.num q) => .ok (env.toF64 q)
  | _ => .error (.workflow s!"numeric switch '{expr}' requires a finite number at '{token}'")

/-- Compare two doubles; `none` when the token is not a comparison operator. -/
def compareOp (op : String) (l r : ℚ) : Option Bool :=
  if op = ">" then some (decide (r < l))
  else if op = ">=" then some (decide (r ≤ l))
  else if op = "<" then some (decide (l < r))
  else if op = "<=" then some (decide (l ≤ r))
  else none

/-- `switch_value`: the value a `when` step switches on, with numeric comparisons of
step outputs. -/
def switchValue (env : Env) (expr : String) (ctx : Json) : Except Err (Option Json) :=
  match Text.splitWhitespace expr with
  | [l, op, r] =>
      if Text.startsWith l "@" && (compareOp op 0 0).isSome then do
        let a ← operand env expr ctx l
        let b ← operand env expr ctx r
        .ok ((compareOp op a b).map .bool)
      else .ok (resolveVariable expr ctx)
  | _ => .ok (resolveVariable expr ctx)

end Condition
end XpressClaw
