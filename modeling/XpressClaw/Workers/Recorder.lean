import Mathlib.Algebra.Ring.Int.Defs
import Mathlib.Data.List.Basic
import XpressClaw.Lib.Text
import XpressClaw.Workers.Interrupts

/-!
# The recorder of a turn

`AcpEventRecorder`: what the updates of a session do to the buffers of a turn and to the events
that are written.

* `classify`, `isPromptErrorNotice` — the texts that may announce a failure of the provider.
* `AcpEventRecorder` — the runner, the lane, the buffers, and everything written so far.
* `recordNotification` — one update; `prompt` — the updates of one successful prompt, from
  `reset_prompt_output` to `resolve_prompt_output`; `finish` — the summary.
-/

namespace XpressClaw.Workers.Acp

open Lib

/-! ## Notices of the provider -/

/-- `serde_json::Value`, as far as a provider's error is read: the numbers are those that are an
`i64`. -/
inductive Value where
  | integer (n : ℤ)
  | string (text : String)
  | object (fields : List (String × Value))
  | other

/-- `str::parse::<i64>`. -/
def parseI64 (s : String) : Option ℤ :=
  let read (digits : List Char) : Option ℤ :=
    if digits = [] ∨ digits.any (fun c => !c.isDigit) then none
    else some (digits.foldl (fun n c => 10 * n + (c.toNat - '0'.toNat : ℕ)) 0)
  let value : Option ℤ :=
    match s.toList with
    | '-' :: digits => (read digits).map (- ·)
    | '+' :: digits => read digits
    | digits => read digits
  value.filter fun n => -2 ^ 63 ≤ n ∧ n < 2 ^ 63

structure Signals where
  reason : Option String := none
  permanent : Bool := false

namespace Signals

def status (signals : Signals) (code : ℤ) : Signals :=
  if code = 429 then { signals with reason := some "Provider rate limit" }
  else if code = 503 ∨ code = 529 then
    { signals with reason := some "Provider capacity unavailable" }
  else if (400 ≤ code ∧ code ≤ 405) ∨ code = 422 then { signals with permanent := true }
  else signals

def permanentMarkers : List String :=
  ["insufficient_quota", "insufficient quota", "credit balance is too low", "billing_hard_limit",
    "billing limit", "authentication_error", "invalid api key", "invalid_api_key",
    "permission_denied", "context_length_exceeded"]

def rateMarkers : List String :=
  ["rate_limit", "rate limit", "too_many_requests", "too many requests"]

def capacityMarkers : List String :=
  ["overloaded_error", "server_overloaded", "server is overloaded", "model is overloaded"]

def text (signals : Signals) (text : String) : Signals :=
  if 16384 < text.utf8ByteSize then signals
  else
    let text := Text.asciiLower text
    let signals :=
      if permanentMarkers.any (Text.contains text) then { signals with permanent := true }
      else signals
    if rateMarkers.any (Text.contains text) then
      { signals with reason := some "Provider rate limit" }
    else if capacityMarkers.any (Text.contains text) ||
        (Text.contains text "at capacity" &&
          ["model", "provider", "server", "service"].any (Text.contains text)) then
      { signals with reason := some "Provider capacity unavailable" }
    else signals

/-- `data`, with the levels that are still read; `fromStr` is `serde_json::from_str`. -/
def data (fromStr : String → Option Value) : ℕ → Signals → Value → Signals
  | 0, signals, _ => signals
  | depth + 1, signals, .string s =>
      if 16384 < s.utf8ByteSize then signals
      else
        match fromStr s with
        | some value => data fromStr depth (signals.text s) value
        | none => signals.text s
  | depth + 1, signals, .object fields =>
      fields.foldl (fun signals field =>
        let key := Text.asciiLower field.1
        if key ∈ ["status", "statuscode", "status_code", "httpstatus", "http_status", "code"] then
          match field.2 with
          | .integer code => signals.status code
          | .string s =>
              match parseI64 s with
              | some code => signals.status code
              | none => signals.text s
          | _ => signals
        else if key ∈ ["type", "error_type", "message"] then
          match field.2 with
          | .string s => signals.text s
          | _ => signals
        else if key ∈ ["error", "cause", "data", "response", "headers"] then
          data fromStr depth signals field.2
        else signals) signals
  | _ + 1, signals, _ => signals

end Signals

/-- `classify` of an internal error with a text for its data: the reason of the advice. -/
def classify (fromStr : String → Option Value) (text : String) : Option String :=
  let signals := (({} : Signals).status (-32603)).text "Internal error"
  let signals :=
    match fromStr "Internal error" with
    | some value => signals.data fromStr 5 value
    | none => signals
  let signals := signals.data fromStr 5 (.string text)
  if signals.permanent then none else signals.reason

/-- `is_notice`: an error that is labelled as one. -/
def isNotice (fromStr : String → Option Value) (text : String) : Bool :=
  let text := (Text.trim text).toList
  ["api error:", "provider error:", "error:"].any fun label =>
    Text.asciiLower (String.ofList (text.take label.length)) == label &&
      (classify fromStr (Text.trim (String.ofList (text.drop label.length)))).isSome

def claudeOauthRefreshConflict : String :=
  "failed to refresh oauth token: another claude code process is refreshing it or exited mid-refresh"

def isClaudeOauthRefreshNotice (runner text : String) : Bool :=
  if runner ≠ "claude" then false
  else
    let text := Text.asciiLower (Text.trim text)
    let text :=
      if Text.startsWith text "api error: " then
        String.ofList (text.toList.drop "api error: ".length)
      else text
    Text.startsWith text claudeOauthRefreshConflict

def isPromptErrorNotice (fromStr : String → Option Value) (runner text : String)
    (codexSystemError : Bool) : Bool :=
  isClaudeOauthRefreshNotice runner text || isNotice fromStr text ||
    (runner == "codex" && codexSystemError && (classify fromStr text).isSome)

/-! ## Updates -/

inductive ContentBlock where
  | text (text : String)
  /-- An image, a sound or a resource. -/
  | other
  deriving DecidableEq, Repr

inductive PlanEntryStatus where
  | pending
  | inProgress
  | completed
  deriving DecidableEq, Repr

inductive SessionUpdate where
  | agentMessageChunk (content : ContentBlock) (messageId : Option String)
  | agentThoughtChunk (content : ContentBlock)
  | toolCall (toolCallId title : String) (status : ToolCallStatus)
  | toolCallUpdate (toolCallId : String) (title : Option String) (status : Option ToolCallStatus)
  | plan (entries : List (String × PlanEntryStatus))
  | currentModeUpdate (currentModeId : String)
  /-- With the `/_meta/codex/threadStatus/type` of the payload. -/
  | sessionInfoUpdate (title threadStatus : Option String)
  | usageUpdate (used size : ℕ)
  | configOptionUpdate (configOptions : List String)
  | availableCommandsUpdate (availableCommands : List String)
  | userMessageChunk (content : ContentBlock)
  /-- A kind of update that is not known yet. -/
  | unknown
  deriving DecidableEq, Repr

structure SessionNotification where
  sessionId : String
  update : SessionUpdate
  deriving DecidableEq, Repr

/-! ## The recorder -/

/-- The payload of an event. -/
inductive Payload where
  | update (update : SessionUpdate)
  | thought (text : String)
  | agentMessage (messageId : Option String)
  | availableCommands (commands : List String)
  | sessionControls (configOptions : List String) (modes : Bool) (nativeSessionId : String)
  deriving DecidableEq, Repr

/-- What the recorder writes. -/
inductive Entry where
  /-- An event of the session of a task. -/
  | event (eventType summary : String) (payload : Payload)
  /-- `record_conversation_agent_update`. -/
  | conversationAgentUpdate (message : String)
  /-- `sync_reported_subtasks`. -/
  | reportedSubtasks (entries : List (String × PlanEntryStatus))
  /-- `set_context_usage`. -/
  | contextUsage (used size : ℕ)
  deriving DecidableEq, Repr

structure TurnState where
  assistantText : String := ""
  lastAssistantText : String := ""
  currentMessageId : Option String := none
  deferredAgentMessages : List (Option String × String) := []
  pendingThought : String := ""
  toolTitles : String → Option String := fun _ => none
  transcript : List SessionUpdate := []
  capturePromptOutput : Bool := false
  promptActivitySeen : Bool := false
  codexSystemError : Bool := false
  promptSessionId : Option String := none

structure AcpEventRecorder where
  runner : String
  conversationId : Option String := none
  state : TurnState := {}
  /-- Everything that was written, oldest first. -/
  written : List Entry := []

def maxTranscriptUpdates : ℕ := 500

def truncateChars (value : String) (max : ℕ) : String :=
  if value.length ≤ max then value else String.ofList (value.toList.take max ++ ['…'])

def toolSummary (title : String) : ToolCallStatus → String
  | .pending => "Preparing " ++ title
  | .failed => "Failed " ++ title
  | .inProgress | .completed => title

namespace AcpEventRecorder

variable (fromStr : String → Option Value) (r : AcpEventRecorder)

def resetPromptOutput : AcpEventRecorder :=
  { r with
    state := { r.state with
      assistantText := ""
      lastAssistantText := ""
      currentMessageId := none
      deferredAgentMessages := []
      pendingThought := ""
      capturePromptOutput := true
      promptActivitySeen := false
      codexSystemError := false
      promptSessionId := none } }

def persistNativeSession (nativeSessionId : String) : AcpEventRecorder :=
  { r with state := { r.state with promptSessionId := some nativeSessionId } }

def markPromptActivity : AcpEventRecorder :=
  if r.state.capturePromptOutput then
    { r with state := { r.state with promptActivitySeen := true } }
  else r

def write (entry : Entry) : AcpEventRecorder := { r with written := r.written ++ [entry] }

/-- A Conversation has no events. -/
def appendEvent (eventType summary : String) (payload : Payload) : AcpEventRecorder :=
  if r.conversationId.isSome then r else r.write (.event eventType summary payload)

def flushThought : AcpEventRecorder :=
  let thought := Text.trim r.state.pendingThought
  let r : AcpEventRecorder := { r with state := { r.state with pendingThought := "" } }
  if thought = "" then r
  else r.appendEvent "agent_thought" (truncateChars thought 1000) (.thought thought)

def publishAgentMessage (messageId : Option String) (message : String) : AcpEventRecorder :=
  let r : AcpEventRecorder :=
    { r with
      state := { r.state with promptActivitySeen := true, lastAssistantText := message } }
  if r.conversationId.isSome then r.write (.conversationAgentUpdate message)
  else r.appendEvent "runner_progress" message (.agentMessage messageId)

def flushAgentMessage : AcpEventRecorder :=
  if r.state.capturePromptOutput then
    let message := Text.trim r.state.assistantText
    let messageId := r.state.currentMessageId
    let r : AcpEventRecorder :=
      { r with state := { r.state with assistantText := "", currentMessageId := none } }
    if message = "" then r
    else
      let retryNotice := isPromptErrorNotice fromStr r.runner message r.state.codexSystemError
      let r : AcpEventRecorder :=
        if retryNotice then r
        else { r with state := { r.state with promptActivitySeen := true } }
      -- A notice is held back, and so is all that follows it, until the response is there.
      if retryNotice = true ∨ r.state.deferredAgentMessages ≠ [] then
        { r with
          state := { r.state with
            deferredAgentMessages := r.state.deferredAgentMessages ++ [(messageId, message)] } }
      else r.publishAgentMessage messageId message
  else r

def flushPromptOutput : AcpEventRecorder := (r.flushAgentMessage fromStr).flushThought

def resolvePromptOutput (retryableError : Bool) : AcpEventRecorder :=
  let r : AcpEventRecorder :=
    if retryableError && isPromptErrorNotice fromStr r.runner r.state.assistantText
        r.state.codexSystemError then
      { r with state := { r.state with assistantText := "", currentMessageId := none } }
    else r
  let deferred := r.state.deferredAgentMessages
  let codexSystemError := r.state.codexSystemError
  let r : AcpEventRecorder := { r with state := { r.state with deferredAgentMessages := [] } }
  deferred.foldl (fun r message =>
    if !retryableError || !isPromptErrorNotice fromStr r.runner message.2 codexSystemError then
      r.publishAgentMessage message.1 message.2
    else r) r

/-! ### One update -/

def pushTranscript (update : SessionUpdate) : AcpEventRecorder :=
  if r.state.transcript.length < maxTranscriptUpdates then
    { r with state := { r.state with transcript := r.state.transcript ++ [update] } }
  else r

/-- The transcript, and whether the agent has begun to work. -/
def observe (update : SessionUpdate) : AcpEventRecorder :=
  let r := r.pushTranscript update
  match update with
  | .agentThoughtChunk _ | .toolCall .. | .toolCallUpdate .. | .plan _ => r.markPromptActivity
  | _ => r

def addText (messageId : Option String) (text : String) : AcpEventRecorder :=
  { r with
    state := { r.state with
      currentMessageId := if messageId.isSome then messageId else r.state.currentMessageId
      assistantText := r.state.assistantText ++ text } }

def recordMessageChunk (text : String) (messageId : Option String) : AcpEventRecorder :=
  if r.state.capturePromptOutput then
    let startsNewMessage : Bool :=
      messageId.isSome && r.state.currentMessageId.isSome && messageId != r.state.currentMessageId
    let r := if startsNewMessage then r.flushAgentMessage fromStr else r
    r.flushThought.addText messageId text
  else r

def addThought (text : String) : AcpEventRecorder :=
  { r with state := { r.state with pendingThought := r.state.pendingThought ++ text } }

def recordThoughtChunk (text : String) : AcpEventRecorder :=
  if r.state.capturePromptOutput then (r.flushAgentMessage fromStr).addThought text else r

def insertToolTitle (toolCallId title : String) : AcpEventRecorder :=
  { r with
    state := { r.state with
      toolTitles := fun id => if id = toolCallId then some title else r.state.toolTitles id } }

/-- The thread of the prompt may report a system error. -/
def recordThreadStatus (sessionId : String) (threadStatus : Option String) : AcpEventRecorder :=
  match threadStatus with
  | some status =>
      if r.runner = "codex" ∧ r.state.capturePromptOutput = true ∧
          r.state.promptSessionId = some sessionId then
        { r with state := { r.state with codexSystemError := status == "systemError" } }
      else r
  | none => r

def recordNativeControls (configOptions : List String) (modes : Bool) (nativeSessionId : String) :
    AcpEventRecorder :=
  r.appendEvent "session_config_options"
    s!"Agent advertised {configOptions.length + modes.toNat} session controls"
    (.sessionControls configOptions modes nativeSessionId)

def recordToolCall (toolCallId title : String) (status : ToolCallStatus) (payload : Payload) :
    AcpEventRecorder :=
  ((r.flushPromptOutput fromStr).insertToolTitle toolCallId title).appendEvent "tool_call"
    (toolSummary title status) payload

def recordToolCallUpdate (toolCallId : String) (newTitle : Option String)
    (status : Option ToolCallStatus) (payload : Payload) : AcpEventRecorder :=
  let r := r.flushPromptOutput fromStr
  let r :=
    match newTitle with
    | some title => r.insertToolTitle toolCallId title
    | none => r
  let title := (r.state.toolTitles toolCallId).getD "Tool call"
  match status with
  | some status => r.appendEvent "tool_call_update" (toolSummary title status) payload
  | none => r

def recordPlan (entries : List (String × PlanEntryStatus)) (payload : Payload) :
    AcpEventRecorder :=
  let r := r.flushPromptOutput fromStr
  let r := if r.conversationId.isNone then r.write (.reportedSubtasks entries) else r
  let completed := (entries.filter (·.2 = .completed)).length
  r.appendEvent "plan" s!"Updated plan: {completed}/{entries.length} complete" payload

def recordSessionInfo (title threadStatus : Option String) (sessionId : String)
    (payload : Payload) : AcpEventRecorder :=
  let r := (r.flushPromptOutput fromStr).recordThreadStatus sessionId threadStatus
  match title with
  | some title => r.appendEvent "session_info" s!"Session title: {title}" payload
  | none => r

/-- `record_notification_with_modes`. -/
def recordNotification (notification : SessionNotification) (modes : Bool) : AcpEventRecorder :=
  let r := r.observe notification.update
  let payload := Payload.update notification.update
  match notification.update with
  | .agentMessageChunk (.text text) messageId => r.recordMessageChunk fromStr text messageId
  | .agentMessageChunk .other _ => r.markPromptActivity
  | .agentThoughtChunk (.text text) => r.recordThoughtChunk fromStr text
  | .agentThoughtChunk .other => r
  | .toolCall toolCallId title status => r.recordToolCall fromStr toolCallId title status payload
  | .toolCallUpdate toolCallId title status =>
      r.recordToolCallUpdate fromStr toolCallId title status payload
  | .plan entries => r.recordPlan fromStr entries payload
  | .currentModeUpdate currentModeId =>
      (r.flushPromptOutput fromStr).appendEvent "session_mode"
        s!"Switched to {currentModeId} mode" payload
  | .sessionInfoUpdate title threadStatus =>
      r.recordSessionInfo fromStr title threadStatus notification.sessionId payload
  | .usageUpdate used size => (r.flushPromptOutput fromStr).write (.contextUsage used size)
  | .configOptionUpdate configOptions =>
      (r.flushPromptOutput fromStr).recordNativeControls configOptions modes notification.sessionId
  | .availableCommandsUpdate availableCommands =>
      (r.flushPromptOutput fromStr).appendEvent "available_commands"
        s!"Agent advertised {availableCommands.length} commands"
        (.availableCommands availableCommands)
  | .userMessageChunk _ | .unknown => r

/-! ### A prompt -/

/-- The updates that arrive during a prompt, each with whether the session has modes. -/
def recordAll (notifications : List (SessionNotification × Bool)) : AcpEventRecorder :=
  notifications.foldl (fun r n => r.recordNotification fromStr n.1 n.2) r

/-- A prompt whose response is a success. -/
def prompt (nativeSessionId : String) (notifications : List (SessionNotification × Bool)) :
    AcpEventRecorder :=
  ((r.resetPromptOutput.persistNativeSession nativeSessionId).recordAll fromStr
    notifications).resolvePromptOutput fromStr false

/-- The recorder after `finish`, and the summary it returns. -/
def finish : AcpEventRecorder × String :=
  let r := r.flushThought
  let currentMessage := Text.trim r.state.assistantText
  (r, if currentMessage = "" then r.state.lastAssistantText else currentMessage)

end AcpEventRecorder

/-- The messages of the agent among what was written. -/
def Entry.agentMessage : Entry → Option String
  | .event _ summary (.agentMessage _) => some summary
  | .conversationAgentUpdate message => some message
  | _ => none

/-- The agent messages that a recorder has published, oldest first. -/
def AcpEventRecorder.published (r : AcpEventRecorder) : List String :=
  r.written.filterMap Entry.agentMessage

end XpressClaw.Workers.Acp
