import XpressClaw.Workers.Recorder

/-!
# The reply of a turn

What a prompt publishes and what `finish` returns, read off the updates alone.

* `Mark` — what an update is for the reply: text, work, metadata, or nothing.
* `Pieces` — the text as the recorder cuts it; `Told` says that a recorder has published the
  pieces it should have, and `told_recordNotification` that an update keeps this.
* `Reading` — the text as messages: a message goes on until the agent works or begins a message
  of another name.
* `Agrees`, `agrees_read` — where a message is not parted by metadata the last piece is the last
  message.
-/

namespace XpressClaw.Workers.Acp

open Lib

/-! ## Marks -/

/-- What an update is for the reply. -/
inductive Mark where
  | chunk (messageId : Option String) (text : String)
  /-- A thought, a tool call or a plan. -/
  | work
  /-- The mode, the title, the usage, the options or the commands of the session. -/
  | metadata
  | silent
  deriving DecidableEq, Repr

def SessionUpdate.mark : SessionUpdate → Mark
  | .agentMessageChunk (.text text) messageId => .chunk messageId text
  | .agentThoughtChunk (.text _) | .toolCall .. | .toolCallUpdate .. | .plan _ => .work
  | .currentModeUpdate _ | .sessionInfoUpdate .. | .usageUpdate .. | .configOptionUpdate _
  | .availableCommandsUpdate _ => .metadata
  | .agentMessageChunk .other _ | .agentThoughtChunk .other | .userMessageChunk _
  | .unknown => .silent

/-- The text of a message chunk. -/
def Mark.spoken : Mark → List Char
  | .chunk _ text => text.toList
  | _ => []

/-- Whether a chunk belongs to another message than the one with the id `current`. -/
def differs (current messageId : Option String) : Bool :=
  messageId.isSome && current.isSome && messageId != current

/-! ## Messages -/

structure Message where
  text : String := ""
  /-- The id that the last chunk belongs to. -/
  messageId : Option String := none
  /-- A metadata update fell between two chunks. -/
  parted : Bool := false
  deriving DecidableEq, Repr

/-- The messages that are over, and the one that may go on. -/
structure Reading where
  closed : List Message := []
  current : Message := {}
  /-- A metadata update came after the last chunk. -/
  interrupted : Bool := false

/-- A chunk without an id goes on with the message, but an id is not carried past metadata. -/
def Reading.read (d : Reading) : Mark → Reading
  | .chunk messageId text =>
      if differs d.current.messageId messageId then
        { closed := d.closed ++ [d.current], current := { text, messageId } }
      else
        { closed := d.closed
          current :=
            { text := d.current.text ++ text
              messageId :=
                if messageId.isSome then messageId
                else if d.interrupted then none else d.current.messageId
              parted := d.current.parted || (d.interrupted && !Text.isBlank d.current.text) } }
  | .work => { closed := d.closed ++ [d.current] }
  | .metadata => { d with interrupted := true }
  | .silent => d

/-- The last message that says something. -/
def lastSpoken (messages : List Message) : Option Message :=
  (messages.filter fun m => !Text.isBlank m.text).getLast?

def Reading.last (d : Reading) : Option Message := lastSpoken (d.closed ++ [d.current])

/-- The last message of a turn. -/
def lastMessage (marks : List Mark) : Option Message := (marks.foldl Reading.read {}).last

@[simp] theorem lastSpoken_concat (messages : List Message) (m : Message) :
    lastSpoken (messages ++ [m]) =
      if Text.isBlank m.text then lastSpoken messages else some m := by
  unfold lastSpoken
  rw [List.filter_append]
  cases h : Text.isBlank m.text <;> simp [h]

/-! ## Pieces -/

/-- The pieces that are over, and the one that may go on. -/
structure Pieces where
  closed : List String := []
  text : String := ""
  messageId : Option String := none

namespace Pieces

def flush (p : Pieces) : Pieces := { closed := p.closed ++ [p.text] }

def add (p : Pieces) (messageId : Option String) (text : String) : Pieces :=
  { p with
    text := p.text ++ text
    messageId := if messageId.isSome then messageId else p.messageId }

def read (p : Pieces) : Mark → Pieces
  | .chunk messageId text =>
      (if differs p.messageId messageId then p.flush else p).add messageId text
  | .work | .metadata => p.flush
  | .silent => p

variable {p : Pieces} {messageId : Option String} {text : String}

theorem read_of_differs (h : differs p.messageId messageId = true) :
    p.read (.chunk messageId text) = p.flush.add messageId text := by
  rw [read, if_pos h]

theorem read_of_not_differs (h : ¬ differs p.messageId messageId = true) :
    p.read (.chunk messageId text) = p.add messageId text := by
  rw [read, if_neg h]

end Pieces

/-- What is said with some texts: blank ones are left out. -/
def said (texts : List String) : List String := (texts.map Text.trim).filter (· ≠ "")

@[simp] theorem said_nil : said [] = [] := rfl

@[simp] theorem said_concat (texts : List String) (text : String) :
    said (texts ++ [text]) =
      said texts ++ if Text.trim text = "" then [] else [Text.trim text] := by
  unfold said
  rw [List.map_append, List.filter_append]
  by_cases h : Text.trim text = "" <;> simp [h]

/-- The last of some texts, or nothing. -/
def lastOf (texts : List String) : String := texts.getLast?.getD ""

@[simp] theorem lastOf_nil : lastOf [] = "" := rfl

@[simp] theorem lastOf_concat (texts : List String) (text : String) :
    lastOf (texts ++ [text]) = text := by
  simp [lastOf]

theorem lastOf_append (texts more : List String) :
    lastOf (texts ++ more) = more.getLast?.getD (lastOf texts) := by
  unfold lastOf
  rw [List.getLast?_append]
  cases more.getLast? <;> rfl

/-- The summary of a turn that was cut into these pieces. -/
def Pieces.summary (p : Pieces) : String := lastOf (said (p.closed ++ [p.text]))

theorem Pieces.summary_eq (p : Pieces) :
    p.summary = if Text.trim p.text = "" then lastOf (said p.closed) else Text.trim p.text := by
  unfold summary
  rw [said_concat]
  by_cases h : Text.trim p.text = "" <;> simp [h]

@[simp] theorem Pieces.summary_flush (p : Pieces) : p.flush.summary = p.summary := by
  rw [p.flush.summary_eq]
  simp [flush, Text.trim_of_isBlank (s := "") rfl, summary]

theorem Pieces.flatMap_read (p : Pieces) (m : Mark) :
    ((p.read m).closed ++ [(p.read m).text]).flatMap String.toList =
      (p.closed ++ [p.text]).flatMap String.toList ++ m.spoken := by
  cases m with
  | chunk messageId text =>
    by_cases h : differs p.messageId messageId = true
    · rw [read_of_differs h]
      simp [flush, add, Mark.spoken]
    · rw [read_of_not_differs h]
      simp [add, Mark.spoken]
  | work | metadata | silent => simp [read, flush, Mark.spoken]

theorem Pieces.flatMap_foldl_read (marks : List Mark) (p : Pieces) :
    ((marks.foldl read p).closed ++ [(marks.foldl read p).text]).flatMap String.toList =
      (p.closed ++ [p.text]).flatMap String.toList ++ marks.flatMap Mark.spoken := by
  induction marks generalizing p with
  | nil => simp
  | cons m marks ih =>
    rw [List.foldl_cons, ih (p.read m), p.flatMap_read m, List.flatMap_cons, List.append_assoc]

/-! ## The recorder cuts as the pieces say -/

/-- The part of a recorder that the reply depends on. -/
structure Output where
  capture : Bool
  text : String
  messageId : Option String
  deferred : List (Option String × String)
  last : String
  published : List String

def AcpEventRecorder.output (r : AcpEventRecorder) : Output where
  capture := r.state.capturePromptOutput
  text := r.state.assistantText
  messageId := r.state.currentMessageId
  deferred := r.state.deferredAgentMessages
  last := r.state.lastAssistantText
  published := r.published

section Outputs

variable (r : AcpEventRecorder)

theorem published_output : r.output.published = r.published := rfl

theorem text_output : r.output.text = r.state.assistantText := rfl

theorem last_output : r.output.last = r.state.lastAssistantText := rfl

@[simp] theorem output_markPromptActivity : r.markPromptActivity.output = r.output := by
  unfold AcpEventRecorder.markPromptActivity
  split <;> rfl

theorem output_write {entry : Entry} (h : entry.agentMessage = none) :
    (r.write entry).output = r.output := by
  simp [AcpEventRecorder.output, AcpEventRecorder.write, AcpEventRecorder.published, h]

theorem output_appendEvent (eventType summary : String) {payload : Payload}
    (h : (Entry.event eventType summary payload).agentMessage = none) :
    (r.appendEvent eventType summary payload).output = r.output := by
  unfold AcpEventRecorder.appendEvent
  split
  · rfl
  · exact output_write r h

@[simp] theorem output_flushThought : r.flushThought.output = r.output := by
  unfold AcpEventRecorder.flushThought
  dsimp only
  split
  · rfl
  · rw [output_appendEvent _ _ _ rfl]
    rfl

theorem output_addText (messageId : Option String) (text : String) :
    (r.addText messageId text).output =
      { r.output with
        text := r.output.text ++ text
        messageId := if messageId.isSome then messageId else r.output.messageId } := rfl

@[simp] theorem output_addThought (text : String) : (r.addThought text).output = r.output := rfl

@[simp] theorem output_insertToolTitle (toolCallId title : String) :
    (r.insertToolTitle toolCallId title).output = r.output := rfl

@[simp] theorem output_recordThreadStatus (sessionId : String) (threadStatus : Option String) :
    (r.recordThreadStatus sessionId threadStatus).output = r.output := by
  unfold AcpEventRecorder.recordThreadStatus
  split
  · split <;> rfl
  · rfl

@[simp] theorem output_pushTranscript (update : SessionUpdate) :
    (r.pushTranscript update).output = r.output := by
  unfold AcpEventRecorder.pushTranscript
  split <;> rfl

@[simp] theorem output_recordNativeControls (configOptions : List String) (modes : Bool)
    (nativeSessionId : String) :
    (r.recordNativeControls configOptions modes nativeSessionId).output = r.output :=
  output_appendEvent r _ _ rfl

@[simp] theorem output_observe (update : SessionUpdate) : (r.observe update).output = r.output := by
  cases update <;> simp [AcpEventRecorder.observe]

@[simp] theorem output_publishAgentMessage (messageId : Option String) (message : String) :
    (r.publishAgentMessage messageId message).output =
      { r.output with last := message, published := r.published ++ [message] } := by
  unfold AcpEventRecorder.publishAgentMessage AcpEventRecorder.appendEvent
  dsimp only
  split <;> simp [AcpEventRecorder.output, AcpEventRecorder.write, AcpEventRecorder.published,
    Entry.agentMessage]

end Outputs

/-- `out` was published since the prompt began, and what is held back follows it. -/
structure Told (before : List String) (p : Pieces) (o : Output) : Prop where
  capture : o.capture = true
  text : o.text = p.text
  messageId : o.messageId = p.messageId
  published : ∃ out, o.published = before ++ out ∧ out ++ o.deferred.map (·.2) = said p.closed ∧
    o.last = lastOf out

section Recorder

variable {fromStr : String → Option Value} {before : List String} {p : Pieces}
  {r : AcpEventRecorder}

theorem output_flushAgentMessage (h : r.state.capturePromptOutput = true) :
    (r.flushAgentMessage fromStr).output =
      let o : Output := { r.output with text := "", messageId := none }
      let message := Text.trim r.state.assistantText
      if message = "" then o
      else if isPromptErrorNotice fromStr r.runner message r.state.codexSystemError = true ∨
          r.state.deferredAgentMessages ≠ [] then
        { o with deferred := o.deferred ++ [(r.state.currentMessageId, message)] }
      else { o with last := message, published := o.published ++ [message] } := by
  unfold AcpEventRecorder.flushAgentMessage
  rw [if_pos h]
  dsimp only
  by_cases hblank : Text.trim r.state.assistantText = ""
  · rw [if_pos hblank, if_pos hblank]
    rfl
  · rw [if_neg hblank, if_neg hblank]
    cases hnotice : isPromptErrorNotice fromStr r.runner (Text.trim r.state.assistantText)
      r.state.codexSystemError
    · rw [if_neg Bool.false_ne_true]
      by_cases hdeferred : r.state.deferredAgentMessages = []
      · have hpublish : ¬ (false = true ∨ r.state.deferredAgentMessages ≠ []) := by
          simp [hdeferred]
        rw [if_neg hpublish, if_neg hpublish, output_publishAgentMessage]
        rfl
      · have hdefer : false = true ∨ r.state.deferredAgentMessages ≠ [] := Or.inr hdeferred
        rw [if_pos hdefer, if_pos hdefer]
        rfl
    · have hdefer : true = true ∨ r.state.deferredAgentMessages ≠ [] := Or.inl rfl
      rw [if_pos (rfl : true = true), if_pos hdefer, if_pos hdefer]
      rfl

theorem told_flushAgentMessage (h : Told before p r.output) :
    Told before p.flush (r.flushAgentMessage fromStr).output := by
  obtain ⟨out, hout, hsaid, hlast⟩ := h.published
  have htext : r.state.assistantText = p.text := h.text
  rw [output_flushAgentMessage h.capture, htext]
  dsimp only
  by_cases hblank : Text.trim p.text = ""
  · rw [if_pos hblank]
    refine ⟨h.capture, rfl, rfl, out, hout, ?_, hlast⟩
    rw [Pieces.flush, said_concat, if_pos hblank, List.append_nil]
    exact hsaid
  · rw [if_neg hblank]
    have hflush : said p.flush.closed = said p.closed ++ [Text.trim p.text] := by
      rw [Pieces.flush, said_concat, if_neg hblank]
    split_ifs with hdefer
    · refine ⟨h.capture, rfl, rfl, out, hout, ?_, hlast⟩
      rw [hflush, ← hsaid, List.map_append, List.append_assoc]
      rfl
    · -- Nothing is held back, so the message comes right after what was published.
      have hnil : r.output.deferred = [] := not_not.1 (not_or.1 hdefer).2
      rw [hnil, List.map_nil, List.append_nil] at hsaid
      refine ⟨h.capture, rfl, rfl, out ++ [Text.trim p.text], ?_, ?_, (lastOf_concat _ _).symm⟩
      · rw [hout, List.append_assoc]
      · rw [hflush, ← hsaid, hnil, List.map_nil, List.append_nil]

variable (fromStr) in
theorem told_flushPromptOutput (h : Told before p r.output) :
    Told before p.flush (r.flushPromptOutput fromStr).output := by
  rw [AcpEventRecorder.flushPromptOutput, output_flushThought]
  exact told_flushAgentMessage h

theorem told_add {o : Output} (h : Told before p o) (messageId : Option String) (text : String) :
    Told before (p.add messageId text)
      { o with
        text := o.text ++ text
        messageId := if messageId.isSome then messageId else o.messageId } where
  capture := h.capture
  text := by rw [h.text]; rfl
  messageId := by rw [h.messageId]; rfl
  published := h.published

theorem output_recordMessageChunk (h : r.state.capturePromptOutput = true)
    (messageId : Option String) (text : String) :
    (r.recordMessageChunk fromStr text messageId).output =
      let o := (if differs r.state.currentMessageId messageId then r.flushAgentMessage fromStr
        else r).output
      { o with
        text := o.text ++ text
        messageId := if messageId.isSome then messageId else o.messageId } := by
  have hchunk : r.recordMessageChunk fromStr text messageId =
      (if differs r.state.currentMessageId messageId then r.flushAgentMessage fromStr
        else r).flushThought.addText messageId text := by
    rw [AcpEventRecorder.recordMessageChunk, if_pos h]
    rfl
  rw [hchunk, output_addText, output_flushThought]

theorem told_recordMessageChunk (h : Told before p r.output) (messageId : Option String)
    (text : String) :
    Told before (p.read (.chunk messageId text))
      (r.recordMessageChunk fromStr text messageId).output := by
  have hid : r.state.currentMessageId = p.messageId := h.messageId
  rw [output_recordMessageChunk h.capture, hid]
  by_cases hd : differs p.messageId messageId = true
  · rw [if_pos hd, Pieces.read_of_differs hd]
    exact told_add (told_flushAgentMessage h) messageId text
  · rw [if_neg hd, Pieces.read_of_not_differs hd]
    exact told_add h messageId text

theorem told_recordThoughtChunk (h : Told before p r.output) (text : String) :
    Told before p.flush (r.recordThoughtChunk fromStr text).output := by
  have hcapture : r.state.capturePromptOutput = true := h.capture
  rw [AcpEventRecorder.recordThoughtChunk, if_pos hcapture, output_addThought]
  exact told_flushAgentMessage h

theorem output_recordToolCall (toolCallId title : String) (status : ToolCallStatus)
    (update : SessionUpdate) :
    (r.recordToolCall fromStr toolCallId title status (.update update)).output =
      (r.flushPromptOutput fromStr).output := by
  rw [AcpEventRecorder.recordToolCall, output_appendEvent _ _ _ rfl, output_insertToolTitle]

theorem output_recordToolCallUpdate (toolCallId : String) (title : Option String)
    (status : Option ToolCallStatus) (update : SessionUpdate) :
    (r.recordToolCallUpdate fromStr toolCallId title status (.update update)).output =
      (r.flushPromptOutput fromStr).output := by
  unfold AcpEventRecorder.recordToolCallUpdate
  generalize r.flushPromptOutput fromStr = r
  cases status with
  | some status =>
    rw [output_appendEvent _ _ _ rfl]
    cases title <;> rfl
  | none => cases title <;> rfl

theorem output_recordPlan (entries : List (String × PlanEntryStatus)) (update : SessionUpdate) :
    (r.recordPlan fromStr entries (.update update)).output =
      (r.flushPromptOutput fromStr).output := by
  unfold AcpEventRecorder.recordPlan
  generalize r.flushPromptOutput fromStr = r
  rw [output_appendEvent _ _ _ rfl]
  split
  · exact output_write r rfl
  · rfl

theorem output_recordSessionInfo (title threadStatus : Option String) (sessionId : String)
    (update : SessionUpdate) :
    (r.recordSessionInfo fromStr title threadStatus sessionId (.update update)).output =
      (r.flushPromptOutput fromStr).output := by
  unfold AcpEventRecorder.recordSessionInfo
  rw [← output_recordThreadStatus (r.flushPromptOutput fromStr) sessionId threadStatus]
  cases title with
  | some title => exact output_appendEvent _ _ _ rfl
  | none => rfl

/-- **An update is taken as its mark says.** -/
theorem told_recordNotification (h : Told before p r.output) (n : SessionNotification)
    (modes : Bool) :
    Told before (p.read n.update.mark) (r.recordNotification fromStr n modes).output := by
  have hobs : Told before p (r.observe n.update).output := by rwa [output_observe]
  have hflush := told_flushPromptOutput fromStr hobs
  obtain ⟨sessionId, update⟩ := n
  unfold AcpEventRecorder.recordNotification
  generalize r.observe update = r at hobs hflush
  cases update with
  | agentMessageChunk content messageId =>
    cases content with
    | text text => exact told_recordMessageChunk hobs messageId text
    | other => rwa [← output_markPromptActivity] at hobs
  | agentThoughtChunk content =>
    cases content with
    | text text => exact told_recordThoughtChunk hobs text
    | other => exact hobs
  | toolCall toolCallId title status =>
    rw [← output_recordToolCall] at hflush
    exact hflush
  | toolCallUpdate toolCallId title status =>
    rw [← output_recordToolCallUpdate] at hflush
    exact hflush
  | plan entries =>
    rw [← output_recordPlan] at hflush
    exact hflush
  | sessionInfoUpdate title threadStatus =>
    rw [← output_recordSessionInfo] at hflush
    exact hflush
  | usageUpdate used size => rwa [output_write _ rfl]
  | configOptionUpdate configOptions =>
    rw [← output_recordNativeControls _ configOptions modes sessionId] at hflush
    exact hflush
  | currentModeUpdate _ | availableCommandsUpdate _ => rwa [output_appendEvent _ _ _ rfl]
  | userMessageChunk _ | unknown => exact hobs

variable (fromStr) in
theorem told_recordAll (ns : List (SessionNotification × Bool)) (h : Told before p r.output) :
    Told before ((ns.map fun n => n.1.update.mark).foldl Pieces.read p)
      (r.recordAll fromStr ns).output := by
  induction ns generalizing p r with
  | nil => exact h
  | cons n ns ih => exact ih (told_recordNotification h n.1 n.2)

theorem output_publishAll (messages : List (Option String × String)) :
    (messages.foldl (fun r m => r.publishAgentMessage m.1 m.2) r).output =
      { r.output with
        last := (messages.map (·.2)).getLast?.getD r.output.last
        published := r.output.published ++ messages.map (·.2) } := by
  induction messages generalizing r with
  | nil => simp
  | cons m messages ih =>
    rw [List.foldl_cons, ih, output_publishAgentMessage]
    simp [List.getLast?_cons, published_output]

end Recorder

/-- The pieces that the updates of a turn are cut into. -/
def piecesOf (marks : List Mark) : Pieces := marks.foldl Pieces.read {}

theorem resolvePromptOutput_false (fromStr : String → Option Value) (r : AcpEventRecorder) :
    r.resolvePromptOutput fromStr false =
      r.state.deferredAgentMessages.foldl (fun r m => r.publishAgentMessage m.1 m.2)
        { r with state := { r.state with deferredAgentMessages := [] } } := by
  unfold AcpEventRecorder.resolvePromptOutput
  simp

section Prompt

variable (fromStr : String → Option Value) (r : AcpEventRecorder) (nativeSessionId : String)
  (ns : List (SessionNotification × Bool))

/-- **What a prompt publishes** is what is said with all pieces but the last, which stays in the
buffer. -/
theorem told_prompt :
    Told r.published (piecesOf (ns.map fun n => n.1.update.mark))
      (r.prompt fromStr nativeSessionId ns).output ∧
    (r.prompt fromStr nativeSessionId ns).output.deferred = [] := by
  have hstart : Told r.published {}
      (r.resetPromptOutput.persistNativeSession nativeSessionId).output :=
    ⟨rfl, rfl, rfl, [], (List.append_nil _).symm, rfl, rfl⟩
  have htold := told_recordAll fromStr ns hstart
  obtain ⟨out, hout, hsaid, hlast⟩ := htold.published
  rw [AcpEventRecorder.prompt, resolvePromptOutput_false, output_publishAll]
  generalize (r.resetPromptOutput.persistNativeSession nativeSessionId).recordAll fromStr ns = mid
    at htold hout hsaid hlast
  refine ⟨⟨htold.capture, htold.text, htold.messageId,
    out ++ mid.state.deferredAgentMessages.map (·.2), ?_, ?_, ?_⟩, rfl⟩
  · show mid.output.published ++ _ = _
    rw [hout, List.append_assoc]
  · show (out ++ mid.output.deferred.map (·.2)) ++ [] = _
    rw [List.append_nil]
    exact hsaid
  · show Option.getD _ mid.output.last = _
    rw [hlast, lastOf_append]

/-- The summary is the last piece that says something. -/
theorem finish_prompt :
    (r.prompt fromStr nativeSessionId ns).finish.2 =
      (piecesOf (ns.map fun n => n.1.update.mark)).summary := by
  obtain ⟨htold, hnil⟩ := told_prompt fromStr r nativeSessionId ns
  obtain ⟨out, -, hsaid, hlast⟩ := htold.published
  generalize r.prompt fromStr nativeSessionId ns = done at htold hnil hsaid hlast
  rw [hnil, List.map_nil, List.append_nil] at hsaid
  have htext : done.flushThought.state.assistantText = done.output.text := by
    rw [← text_output, output_flushThought]
  have hlastText : done.flushThought.state.lastAssistantText = done.output.last := by
    rw [← last_output, output_flushThought]
  rw [AcpEventRecorder.finish, Pieces.summary_eq]
  dsimp only
  rw [htext, hlastText, htold.text, hlast, hsaid]

end Prompt

/-! ## Messages and pieces -/

/-- What `summary` has to be for messages of which the parted ones are not looked at. -/
def Sums (messages : List Message) (summary : String) : Prop :=
  (lastSpoken messages = none → summary = "") ∧
    ∀ m, lastSpoken messages = some m → m.parted = false → summary = Text.trim m.text

/-- The pieces follow the messages: the open piece is the open message but for white space before
it, unless the message is parted. -/
structure Agrees (d : Reading) (p : Pieces) : Prop where
  messageId : p.messageId = if d.interrupted then none else d.current.messageId
  flushed : d.interrupted = true → p.text = ""
  parted : d.current.parted = true → Text.isBlank d.current.text = false
  suffix : d.current.parted = false → d.interrupted = false →
    ∃ pre, (∀ c ∈ pre, Text.isWhitespace c = true) ∧
      d.current.text.toList = pre ++ p.text.toList
  sums : Sums (d.closed ++ [d.current]) p.summary

theorem Sums.concat {messages : List Message} {summary : String} (h : Sums messages summary)
    (m : Message) :
    Sums (messages ++ [m]) (if Text.trim m.text = "" then summary else Text.trim m.text) := by
  unfold Sums
  rw [lastSpoken_concat]
  by_cases hblank : Text.isBlank m.text = true
  · rw [if_pos hblank, if_pos (Text.trim_of_isBlank hblank)]
    exact h
  · rw [if_neg hblank, if_neg (mt Text.trim_eq_empty_iff.1 hblank)]
    exact ⟨nofun, fun m' h' _ => by cases h'; rfl⟩

theorem Pieces.summary_add_of_empty {p : Pieces} (h : p.text = "") (messageId : Option String)
    (text : String) :
    (p.add messageId text).summary = if Text.trim text = "" then p.summary else Text.trim text := by
  have htext : (p.add messageId text).text = text := by rw [add, h, String.empty_append]
  have hempty : Text.trim p.text = "" := by rw [h]; rfl
  rw [summary_eq, htext, p.summary_eq, if_pos hempty]
  rfl

section Agree

variable {d : Reading} {p : Pieces}

theorem Agrees.work (h : Agrees d p) : Agrees (d.read .work) (p.read .work) where
  messageId := rfl
  flushed := nofun
  parted := nofun
  suffix _ _ := ⟨[], nofun, rfl⟩
  sums := by
    show Sums ((d.closed ++ [d.current]) ++ [({} : Message)]) p.flush.summary
    rw [p.summary_flush]
    exact h.sums.concat {}

theorem Agrees.metadata (h : Agrees d p) : Agrees (d.read .metadata) (p.read .metadata) where
  messageId := rfl
  flushed _ := rfl
  parted := h.parted
  suffix _ := nofun
  sums := by
    show Sums (d.closed ++ [d.current]) p.flush.summary
    rw [p.summary_flush]
    exact h.sums

/-- A chunk of another message: whatever the pieces held of the old one is cut off. -/
theorem Agrees.chunk_of_differs (h : Agrees d p) {messageId : Option String}
    (hd : differs d.current.messageId messageId = true) (text : String) :
    Agrees (d.read (.chunk messageId text)) (p.read (.chunk messageId text)) := by
  have hsome : messageId.isSome = true := by
    unfold differs at hd
    simp only [Bool.and_eq_true] at hd
    exact hd.1.1
  have hcut : ∃ q : Pieces, p.read (.chunk messageId text) = q.add messageId text ∧ q.text = "" ∧
      q.summary = p.summary := by
    cases hi : d.interrupted with
    | true =>
      have hid : p.messageId = none := by rw [h.messageId, hi]; rfl
      refine ⟨p, Pieces.read_of_not_differs ?_, h.flushed hi, rfl⟩
      simp [differs, hid]
    | false =>
      have hid : p.messageId = d.current.messageId := by rw [h.messageId, hi]; rfl
      exact ⟨p.flush, Pieces.read_of_differs (by rwa [hid]), rfl, p.summary_flush⟩
  obtain ⟨q, hq, hempty, hsummary⟩ := hcut
  rw [hq, Reading.read, if_pos hd]
  refine ⟨?_, nofun, nofun, fun _ _ => ⟨[], nofun, ?_⟩, ?_⟩
  · exact if_pos hsome
  · rw [Pieces.add, hempty, String.empty_append]
    rfl
  · rw [Pieces.summary_add_of_empty hempty, hsummary]
    exact h.sums.concat { text, messageId }

theorem Agrees.sums_chunk (h : Agrees d p) {m : Message} {messageId : Option String}
    {text : String} (hm : m.text = d.current.text ++ text)
    (hsuffix : m.parted = false → ∃ pre, (∀ c ∈ pre, Text.isWhitespace c = true) ∧
      m.text.toList = pre ++ (p.text ++ text).toList)
    (hparted : m.parted = true → Text.isBlank m.text = false) :
    Sums (d.closed ++ [m]) (p.add messageId text).summary := by
  cases hp : m.parted with
  | true =>
    unfold Sums
    rw [lastSpoken_concat, hparted hp]
    refine ⟨nofun, fun m' h' hwhole => ?_⟩
    cases h'
    rw [hp] at hwhole
    cases hwhole
  | false =>
    obtain ⟨pre, hpre, heq⟩ := hsuffix hp
    have htrim : Text.trim m.text = Text.trim (p.text ++ text) :=
      Text.trim_of_toList_eq_append hpre heq
    have hsummary : (p.add messageId text).summary =
        if Text.trim m.text = "" then p.summary else Text.trim m.text := by
      rw [htrim, Pieces.summary_eq]
      show (if Text.trim (p.text ++ text) = "" then lastOf (said p.closed) else _) = _
      by_cases hempty : Text.trim (p.text ++ text) = ""
      · rw [if_pos hempty, if_pos hempty, p.summary_eq, if_pos]
        rw [Text.trim_eq_empty_iff, Text.isBlank_append, Bool.and_eq_true] at hempty
        exact Text.trim_of_isBlank hempty.1
      · rw [if_neg hempty, if_neg hempty]
        rfl
    rw [hsummary]
    by_cases hempty : Text.trim m.text = ""
    · have hblank := Text.trim_eq_empty_iff.1 hempty
      have hcur : Text.isBlank d.current.text = true := by
        rw [hm, Text.isBlank_append, Bool.and_eq_true] at hblank
        exact hblank.1
      have hsums := h.sums
      unfold Sums at hsums ⊢
      rw [lastSpoken_concat, if_pos hcur] at hsums
      rw [lastSpoken_concat, if_pos hblank, if_pos hempty]
      exact hsums
    · unfold Sums
      rw [lastSpoken_concat, if_neg (mt Text.trim_of_isBlank hempty), if_neg hempty]
      exact ⟨nofun, fun m' h' _ => by cases h'; rfl⟩

/-- A chunk of the same message. -/
theorem Agrees.chunk_of_not_differs (h : Agrees d p) {messageId : Option String}
    (hd : ¬ differs d.current.messageId messageId = true) (text : String) :
    Agrees (d.read (.chunk messageId text)) (p.read (.chunk messageId text)) := by
  have hnot : ¬ differs p.messageId messageId = true := by
    rw [h.messageId]
    cases d.interrupted with
    | true => simp [differs]
    | false => exact hd
  rw [Pieces.read_of_not_differs hnot, Reading.read, if_neg hd]
  have hblank : Text.isBlank (d.current.text ++ text) = true →
    Text.isBlank d.current.text = true := by
    intro hall
    rw [Text.isBlank_append, Bool.and_eq_true] at hall
    exact hall.1
  have hsuffix : (d.current.parted || (d.interrupted && !Text.isBlank d.current.text)) = false →
      ∃ pre, (∀ c ∈ pre, Text.isWhitespace c = true) ∧
        (d.current.text ++ text).toList = pre ++ (p.text ++ text).toList := by
    intro hwhole
    rw [Bool.or_eq_false_iff] at hwhole
    obtain ⟨hparted, hcut⟩ := hwhole
    cases hi : d.interrupted with
    | false =>
      obtain ⟨pre, hpre, heq⟩ := h.suffix hparted hi
      refine ⟨pre, hpre, ?_⟩
      rw [String.toList_append, String.toList_append, heq, List.append_assoc]
    | true =>
      -- Only white space was cut off.
      rw [hi, Bool.true_and, Bool.not_eq_false'] at hcut
      refine ⟨d.current.text.toList, Text.isBlank_iff.1 hcut, ?_⟩
      rw [String.toList_append, h.flushed hi, String.empty_append]
  have hparted : (d.current.parted || (d.interrupted && !Text.isBlank d.current.text)) = true →
      Text.isBlank (d.current.text ++ text) = false := by
    intro hp
    rw [Bool.eq_false_iff]
    intro hall
    have hcur := hblank hall
    rw [hcur, Bool.not_true, Bool.and_false, Bool.or_false] at hp
    rw [h.parted hp] at hcur
    cases hcur
  refine ⟨?_, nofun, hparted, fun hp _ => hsuffix hp, ?_⟩
  · rw [Pieces.add, h.messageId]
    rfl
  · exact h.sums_chunk rfl hsuffix hparted

/-- **The pieces follow the messages** through every update. -/
theorem agrees_read (h : Agrees d p) (m : Mark) : Agrees (d.read m) (p.read m) := by
  cases m with
  | chunk messageId text =>
    by_cases hd : differs d.current.messageId messageId = true
    · exact h.chunk_of_differs hd text
    · exact h.chunk_of_not_differs hd text
  | work => exact h.work
  | metadata => exact h.metadata
  | silent => exact h

theorem agrees_foldl_read (marks : List Mark) (h : Agrees d p) :
    Agrees (marks.foldl Reading.read d) (marks.foldl Pieces.read p) := by
  induction marks generalizing d p with
  | nil => exact h
  | cons m marks ih => exact ih (agrees_read h m)

end Agree

theorem agrees_start : Agrees {} {} where
  messageId := rfl
  flushed := nofun
  parted := nofun
  suffix _ _ := ⟨[], nofun, rfl⟩
  sums := ⟨fun _ => rfl, nofun⟩

/-- **The reply of a turn.**  What a successful prompt publishes, followed by what is left in the
buffer, is the text of every message chunk once and in order, cut into pieces that are trimmed and
left out where they are blank.  The summary is the complete text of the last message that says
something, unless a metadata update fell between two of its chunks. -/
theorem reply_of_turn (fromStr : String → Option Value) (r : AcpEventRecorder)
    (nativeSessionId : String) (ns : List (SessionNotification × Bool)) :
    (∃ pieces, (r.prompt fromStr nativeSessionId ns).published = r.published ++ said pieces ∧
      (pieces ++ [(r.prompt fromStr nativeSessionId ns).state.assistantText]).flatMap
        String.toList = (ns.map fun n => n.1.update.mark).flatMap Mark.spoken) ∧
    (lastMessage (ns.map fun n => n.1.update.mark) = none →
      (r.prompt fromStr nativeSessionId ns).finish.2 = "") ∧
    ∀ m, lastMessage (ns.map fun n => n.1.update.mark) = some m → m.parted = false →
      (r.prompt fromStr nativeSessionId ns).finish.2 = Text.trim m.text := by
  obtain ⟨htold, hnil⟩ := told_prompt fromStr r nativeSessionId ns
  obtain ⟨out, hout, hsaid, -⟩ := htold.published
  have htext : (r.prompt fromStr nativeSessionId ns).state.assistantText =
      (piecesOf (ns.map fun n => n.1.update.mark)).text := htold.text
  have hagree := agrees_foldl_read (ns.map fun n => n.1.update.mark) agrees_start
  rw [finish_prompt]
  refine ⟨⟨(piecesOf (ns.map fun n => n.1.update.mark)).closed, ?_, ?_⟩, hagree.sums⟩
  · rw [hnil, List.map_nil, List.append_nil] at hsaid
    rw [← hsaid]
    exact hout
  · rw [htext]
    exact Pieces.flatMap_foldl_read _ {}

/-- Two chunks of one message, with an update between them. -/
def twoChunks (between : SessionUpdate) : List (SessionNotification × Bool) :=
  [(⟨"native", .agentMessageChunk (.text "Hello ") (some "m1")⟩, false),
    (⟨"native", between⟩, false),
    (⟨"native", .agentMessageChunk (.text "world") (some "m1")⟩, false)]

/-- A tool call between two chunks of a message ends it, and so does a usage update. -/
theorem summary_not_whole :
    (({ runner := "codex" } : AcpEventRecorder).prompt (fun _ => none) "native"
      (twoChunks (.toolCall "t1" "Read the project" .inProgress))).finish.2 ≠ "Hello world" ∧
    (({ runner := "codex" } : AcpEventRecorder).prompt (fun _ => none) "native"
      (twoChunks (.usageUpdate 10 100))).finish.2 ≠ "Hello world" := by
  decide +kernel

end XpressClaw.Workers.Acp
