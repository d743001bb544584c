import Mathlib.Data.Finset.Basic
import Mathlib.Data.List.Induction
import XpressClaw.Lib.Runs

/-!
# Interrupts of a running turn

`AcpTurnControlBroker`: one entry an attempt, changed by the worker, by the turn that runs, by
the updates the agent sends and by whoever asks for an interruption.

* `serve` — one call of the broker; a signal that cannot be delivered because the receiver is
  gone is kept for the next turn.
* `segment` — what happened to an attempt since it was finished last, and what can be read off
  it: requests that were accepted, signals, tools that are still active, the turn.
* `Fits` — the entry says what the segment says; `sendIfReady_fits` is the one place where a
  signal is sent.
* `interrupts_delivered` — what every run keeps.
-/

namespace XpressClaw.Workers

open Lib

/-! ## The broker -/

inductive AcpInterruptMode where
  /-- Finish any tool that is already in flight first. -/
  | afterTool
  /-- Stop as soon as the agent can. -/
  | immediate
  deriving DecidableEq, Repr

inductive ToolCallStatus where
  | pending
  | inProgress
  | completed
  | failed
  deriving DecidableEq, Repr

/-- The updates of a session, as far as the broker looks at them. -/
inductive SessionUpdate where
  | toolCall (toolCallId : String) (status : ToolCallStatus)
  | toolCallUpdate (toolCallId : String) (status : Option ToolCallStatus)
  | other
  deriving DecidableEq, Repr

inductive InterruptDelivery where
  | pending
  | sent (at_ : ℕ)
  | acknowledged
  deriving DecidableEq, Repr

/-- The entry of an attempt.  A sender is the number of its channel. -/
structure PendingTurnControl where
  sender : Option ℕ := none
  activeTools : Finset String := ∅
  requested : Option AcpInterruptMode := none
  sent : Bool := false
  delivery : InterruptDelivery := .pending
  deriving DecidableEq

/-- The broker, the channels that were made, and those whose receiver is gone. -/
structure AcpTurnControlBroker where
  turns : String → Option PendingTurnControl := fun _ => none
  channels : ℕ := 0
  closed : Finset ℕ := ∅
  now : ℕ := 0

/-- What a call gives back: whether a request was accepted, the channel that a signal was sent
to, and the channel of a turn that was registered. -/
structure Reply where
  accepted : Bool := false
  signal : Option ℕ := none
  channel : Option ℕ := none
  deriving DecidableEq, Repr

inductive Call where
  | beginAttempt
  | requestInterrupt (mode : AcpInterruptMode)
  | acknowledgeInterrupt
  | register
  | observeUpdate (update : SessionUpdate)
  | finishAttempt
  deriving DecidableEq, Repr

namespace PendingTurnControl

variable (c : PendingTurnControl)

def setToolStatus (toolCallId : String) (status : ToolCallStatus) : PendingTurnControl :=
  if status = .completed ∨ status = .failed then
    { c with activeTools := c.activeTools.erase toolCallId }
  else { c with activeTools := insert toolCallId c.activeTools }

def observe : SessionUpdate → PendingTurnControl
  | .toolCall toolCallId status => c.setToolStatus toolCallId status
  | .toolCallUpdate toolCallId (some status) => c.setToolStatus toolCallId status
  | .toolCallUpdate _ none | .other => c

/-- The condition of the request. -/
def ready : Bool :=
  match c.requested with
  | some .immediate => true
  | some .afterTool => c.activeTools = ∅
  | none => false

/-- `send_if_ready`; sending fails where the receiver is gone. -/
def sendIfReady (closed : Finset ℕ) (now : ℕ) : PendingTurnControl × Option ℕ :=
  if c.ready then
    match c.sender with
    | none => (c, none)
    | some channel =>
        if channel ∈ closed then ({ c with sender := none }, none)
        else ({ c with requested := none, sent := true, delivery := .sent now }, some channel)
  else (c, none)

/-- A later request does not weaken an immediate one. -/
def ask (mode : AcpInterruptMode) : PendingTurnControl :=
  if mode = .immediate ∨ c.requested ≠ some .immediate then { c with requested := some mode }
  else c

def acknowledge : PendingTurnControl :=
  if c.sent then { c with delivery := .acknowledged } else c

end PendingTurnControl

namespace AcpTurnControlBroker

variable (b : AcpTurnControlBroker)

def store (attemptId : String) (c : Option PendingTurnControl) : AcpTurnControlBroker :=
  { b with turns := Function.update b.turns attemptId c }

/-- `entry(attempt_id).or_default()`. -/
def entry (attemptId : String) : PendingTurnControl := (b.turns attemptId).getD {}

/-- A call of the broker for an attempt. -/
def serve (attemptId : String) : Call → AcpTurnControlBroker × Reply
  | .beginAttempt => (b.store attemptId (b.entry attemptId), {})
  | .requestInterrupt mode =>
      match b.turns attemptId with
      | none => (b, {})
      | some c =>
          if c.sent then (b, {})
          else
            let r := (c.ask mode).sendIfReady b.closed b.now
            (b.store attemptId r.1, { accepted := true, signal := r.2 })
  | .acknowledgeInterrupt =>
      (b.store attemptId ((b.turns attemptId).map PendingTurnControl.acknowledge), {})
  | .register =>
      let r := { b.entry attemptId with sender := some b.channels }.sendIfReady b.closed b.now
      ({ b.store attemptId r.1 with channels := b.channels + 1 },
        { signal := r.2, channel := some b.channels })
  | .observeUpdate update =>
      let r := ((b.entry attemptId).observe update).sendIfReady b.closed b.now
      (b.store attemptId r.1, { signal := r.2 })
  | .finishAttempt => (b.store attemptId none, {})

end AcpTurnControlBroker

/-! ## Histories -/

/-- A call for an attempt, or something that happens around the broker. -/
inductive Event where
  | call (attemptId : String) (call : Call)
  /-- The turn that holds the receiver of a channel ends. -/
  | drop (channel : ℕ)
  | tick (nanos : ℕ)
  deriving DecidableEq, Repr

/-- A call that was made, and its reply. -/
structure Record where
  attemptId : String
  call : Call
  reply : Reply
  deriving DecidableEq, Repr

/-- A broker and the calls it has served. -/
structure Watched where
  broker : AcpTurnControlBroker := {}
  past : List Record := []

def watch (w : Watched) : Event → Watched
  | .call attemptId call =>
      let r := w.broker.serve attemptId call
      ⟨r.1, w.past ++ [⟨attemptId, call, r.2⟩]⟩
  | .drop channel =>
      if channel < w.broker.channels then
        { w with broker := { w.broker with closed := insert channel w.broker.closed } }
      else w
  | .tick nanos => { w with broker := { w.broker with now := w.broker.now + nanos } }

/-- What happened to an attempt since it was finished last. -/
def segment (attemptId : String) (past : List Record) : List Record :=
  past.foldl (fun seg r =>
    if r.attemptId = attemptId then if r.call = .finishAttempt then [] else seg ++ [r]
    else seg) []

/-- The status of a tool that a call reports. -/
def Call.statusOf (toolCallId : String) : Call → Option ToolCallStatus
  | .observeUpdate (.toolCall id status) => if id = toolCallId then some status else none
  | .observeUpdate (.toolCallUpdate id status) => if id = toolCallId then status else none
  | _ => none

/-- The call makes an entry where there is none. -/
def Call.opens : Call → Bool
  | .beginAttempt | .register | .observeUpdate _ => true
  | _ => false

section Segments

variable (seg : List Record)

/-- A request of this mode was accepted. -/
def Asked (mode : AcpInterruptMode) : Prop :=
  ∃ r ∈ seg, r.call = .requestInterrupt mode ∧ r.reply.accepted = true

/-- The signals that were sent. -/
def signals : List ℕ := seg.filterMap fun r => r.reply.signal

/-- The channel of the turn that was registered last. -/
def turn : Option ℕ := (seg.filterMap fun r => r.reply.channel).getLast?

/-- What was observed last of a tool. -/
def lastStatus (toolCallId : String) : Option ToolCallStatus :=
  (seg.filterMap fun r => r.call.statusOf toolCallId).getLast?

/-- The tool was observed and has not ended. -/
def Active (toolCallId : String) : Prop :=
  lastStatus seg toolCallId = some .pending ∨ lastStatus seg toolCallId = some .inProgress

/-- The attempt was begun. -/
def Begun : Prop := ∃ r ∈ seg, r.call = .beginAttempt

/-- Some call made an entry. -/
def Opened : Prop := ∃ r ∈ seg, r.call.opens = true

variable {seg} {r : Record} {attemptId : String} {past : List Record}

theorem segment_concat : segment attemptId (past ++ [r]) =
    if r.attemptId = attemptId then
      if r.call = .finishAttempt then [] else segment attemptId past ++ [r]
    else segment attemptId past := by
  simp [segment]

theorem asked_concat {mode : AcpInterruptMode} : Asked (seg ++ [r]) mode ↔
    Asked seg mode ∨ r.call = .requestInterrupt mode ∧ r.reply.accepted = true := by
  simp only [Asked, List.mem_append, List.mem_singleton]
  constructor
  · rintro ⟨r', hr' | rfl, h⟩
    · exact .inl ⟨r', hr', h⟩
    · exact .inr h
  · rintro (⟨r', hr', h⟩ | h)
    · exact ⟨r', .inl hr', h⟩
    · exact ⟨r, .inr rfl, h⟩

theorem signals_concat : signals (seg ++ [r]) = signals seg ++ r.reply.signal.toList := by
  rw [signals, List.filterMap_append]
  cases h : r.reply.signal <;> simp [signals, h]

theorem turn_concat : turn (seg ++ [r]) = r.reply.channel.or (turn seg) := by
  rw [turn, List.filterMap_append]
  cases h : r.reply.channel <;> simp [turn, h]

theorem lastStatus_concat {t : String} :
    lastStatus (seg ++ [r]) t = (r.call.statusOf t).or (lastStatus seg t) := by
  rw [lastStatus, List.filterMap_append]
  cases h : r.call.statusOf t <;> simp [lastStatus, h]

theorem opened_concat : Opened (seg ++ [r]) ↔ Opened seg ∨ r.call.opens = true := by
  simp only [Opened, List.mem_append, List.mem_singleton]
  constructor
  · rintro ⟨r', hr' | rfl, h⟩
    · exact .inl ⟨r', hr', h⟩
    · exact .inr h
  · rintro (⟨r', hr', h⟩ | h)
    · exact ⟨r', .inl hr', h⟩
    · exact ⟨r, .inr rfl, h⟩

theorem begun_concat : Begun (seg ++ [r]) ↔ Begun seg ∨ r.call = .beginAttempt := by
  simp only [Begun, List.mem_append, List.mem_singleton]
  constructor
  · rintro ⟨r', hr' | rfl, h⟩
    · exact .inl ⟨r', hr', h⟩
    · exact .inr h
  · rintro (⟨r', hr', h⟩ | h)
    · exact ⟨r', .inl hr', h⟩
    · exact ⟨r, .inr rfl, h⟩

end Segments

/-! ## The entry and the segment -/

/-- The entry says what the segment says. -/
structure Fits (c : PendingTurnControl) (seg : List Record) (closed : Finset ℕ) : Prop where
  tools : ∀ t, t ∈ c.activeTools ↔ Active seg t
  once : (signals seg).length ≤ 1
  sent : c.sent = true ↔ signals seg ≠ []
  idle : c.sent = true → c.requested = none
  immediate : c.sent = false → (c.requested = some .immediate ↔ Asked seg .immediate)
  pending : c.sent = false →
    (c.requested = none ↔ ¬ Asked seg .immediate ∧ ¬ Asked seg .afterTool)
  sender : ∀ n, turn seg = some n → n ∉ closed → c.sender = some n

/-- Nothing is ready that could be sent. -/
def Settled (c : PendingTurnControl) (closed : Finset ℕ) : Prop :=
  ∀ n, c.sender = some n → n ∉ closed → c.ready = false

section Entry

variable {c : PendingTurnControl} {seg : List Record} {closed : Finset ℕ} {id : String} {now n : ℕ}

theorem Fits.default : Fits {} [] closed where
  tools t := by simp [Active, lastStatus]
  once := Nat.zero_le _
  sent := by simp [signals]
  idle _ := rfl
  immediate _ := by simp [Asked]
  pending _ := by simp [Asked]
  sender n h := by simp [turn] at h

theorem Fits.neutral (h : Fits c seg closed) {call : Call}
    (hcall : ∀ t, call.statusOf t = none) : Fits c (seg ++ [⟨id, call, {}⟩]) closed where
  tools t := by
    rw [h.tools, Active, Active, lastStatus_concat, hcall, Option.none_or]
  once := by simpa [signals_concat] using h.once
  sent := by simpa [signals_concat] using h.sent
  idle := h.idle
  immediate hs := by simpa [asked_concat] using h.immediate hs
  pending hs := by simpa [asked_concat] using h.pending hs
  sender n hn := h.sender n (by simpa [turn_concat] using hn)

/-- A request that is accepted. -/
theorem Fits.ask (h : Fits c seg closed) (hs : c.sent = false) (mode : AcpInterruptMode) :
    Fits (c.ask mode) (seg ++ [⟨id, .requestInterrupt mode, { accepted := true }⟩]) closed := by
  have hsame : (c.ask mode).sent = c.sent ∧ (c.ask mode).activeTools = c.activeTools ∧
      (c.ask mode).sender = c.sender := by
    unfold PendingTurnControl.ask
    split <;> exact ⟨rfl, rfl, rfl⟩
  obtain ⟨hsent, htools, hsender⟩ := hsame
  have himm := h.immediate hs
  have hnone := h.pending hs
  refine ⟨fun t => ?_, ?_, ?_, fun hs' => ?_, fun _ => ?_, fun _ => ?_, fun n hn => ?_⟩
  · rw [htools, h.tools, Active, Active, lastStatus_concat]
    rfl
  · simpa [signals_concat] using h.once
  · rw [hsent]
    simpa [signals_concat] using h.sent
  · rw [hsent, hs] at hs'
    cases hs'
  · rw [asked_concat]
    unfold PendingTurnControl.ask
    cases mode with
    | immediate => simp
    | afterTool =>
      by_cases hr : c.requested = some .immediate
      · simp [hr, himm.1 hr]
      · have hnot : ¬ Asked seg .immediate := fun ha => hr (himm.2 ha)
        simp [hr, hnot]
  · rw [asked_concat, asked_concat]
    unfold PendingTurnControl.ask
    cases mode with
    | immediate => simp
    | afterTool =>
      by_cases hr : c.requested = some .immediate
      · simp [hr]
      · simp [hr]
  · rw [hsender]
    exact h.sender n (by simpa [turn_concat] using hn)

theorem Fits.register (h : Fits c seg closed) (n : ℕ) :
    Fits { c with sender := some n } (seg ++ [⟨id, .register, { channel := some n }⟩]) closed where
  tools t := by
    rw [h.tools, Active, Active, lastStatus_concat]
    rfl
  once := by simpa [signals_concat] using h.once
  sent := by simpa [signals_concat] using h.sent
  idle := h.idle
  immediate hs := by simpa [asked_concat] using h.immediate hs
  pending hs := by simpa [asked_concat] using h.pending hs
  sender m hm _ := by simpa [turn_concat] using hm

/-- The tools of an entry, one update later. -/
theorem mem_observe {u : SessionUpdate} {t : String} : t ∈ (c.observe u).activeTools ↔
    ((Call.observeUpdate u).statusOf t = some .pending ∨
      (Call.observeUpdate u).statusOf t = some .inProgress) ∨
    (Call.observeUpdate u).statusOf t = none ∧ t ∈ c.activeTools := by
  cases u with
  | other => simp [PendingTurnControl.observe, Call.statusOf]
  | toolCall id status =>
    unfold PendingTurnControl.observe PendingTurnControl.setToolStatus Call.statusOf
    by_cases hid : id = t
    · subst hid
      cases status <;> simp
    · have hne : t ≠ id := Ne.symm hid
      cases status <;> simp [hid, hne]
  | toolCallUpdate id status =>
    cases status with
    | none =>
      unfold PendingTurnControl.observe Call.statusOf
      simp
    | some status =>
      unfold PendingTurnControl.observe PendingTurnControl.setToolStatus Call.statusOf
      by_cases hid : id = t
      · subst hid
        cases status <;> simp
      · have hne : t ≠ id := Ne.symm hid
        cases status <;> simp [hid, hne]

/-- An update that is observed. -/
theorem Fits.observe (h : Fits c seg closed) (u : SessionUpdate) :
    Fits (c.observe u) (seg ++ [⟨id, .observeUpdate u, {}⟩]) closed := by
  have hsame : (c.observe u).sent = c.sent ∧ (c.observe u).requested = c.requested ∧
      (c.observe u).sender = c.sender := by
    unfold PendingTurnControl.observe PendingTurnControl.setToolStatus
    split <;> try split
    all_goals exact ⟨rfl, rfl, rfl⟩
  obtain ⟨hsent, hreq, hsender⟩ := hsame
  refine ⟨fun t => ?_, ?_, ?_, ?_, ?_, ?_, fun n hn => ?_⟩
  · rw [mem_observe, Active, lastStatus_concat]
    cases hst : (Call.observeUpdate u).statusOf t with
    | none => simpa [Active] using h.tools t
    | some status => cases status <;> simp
  · simpa [signals_concat] using h.once
  · rw [hsent]
    simpa [signals_concat] using h.sent
  · rw [hsent, hreq]
    exact h.idle
  · rw [hsent, hreq]
    simpa [asked_concat] using h.immediate
  · rw [hsent, hreq]
    simpa [asked_concat] using h.pending
  · rw [hsender]
    exact h.sender n (by simpa [turn_concat] using hn)

/-- **Sending a signal.**  What the call appended fits the entry before; the reply then tells
the signal, nothing that is ready is left over, and a signal for requests that were all to wait
for the tools is sent while no tool is active. -/
theorem sendIfReady_fits (now : ℕ) {call : Call} {accepted : Bool} {channel : Option ℕ}
    (h : Fits c (seg ++ [⟨id, call, { accepted, channel }⟩]) closed) :
    Fits (c.sendIfReady closed now).1
      (seg ++ [⟨id, call, ⟨accepted, (c.sendIfReady closed now).2, channel⟩⟩]) closed ∧
    Settled (c.sendIfReady closed now).1 closed ∧
    ((c.sendIfReady closed now).2.isSome →
      ¬ Asked (seg ++ [⟨id, call, ⟨accepted, (c.sendIfReady closed now).2, channel⟩⟩]) .immediate →
        ∀ t, ¬ Active
          (seg ++ [⟨id, call, ⟨accepted, (c.sendIfReady closed now).2, channel⟩⟩]) t) := by
  unfold PendingTurnControl.sendIfReady
  split
  · rename_i hready
    have hsent : c.sent = false := by
      cases hs : c.sent with
      | false => rfl
      | true =>
        rw [PendingTurnControl.ready, h.idle hs] at hready
        cases hready
    split
    · rename_i hsender
      refine ⟨h, fun n hn => ?_, fun hsome => by cases hsome⟩
      rw [hsender] at hn
      cases hn
    · rename_i ch hsender
      split
      · -- the receiver is gone: the request waits for another turn
        rename_i hclosed
        refine ⟨⟨h.tools, h.once, h.sent, h.idle, h.immediate, h.pending, fun n hn hopen => ?_⟩,
          fun n hn => ?_, fun hsome => by cases hsome⟩
        · have hch := h.sender n hn hopen
          rw [hsender] at hch
          exact absurd (Option.some.inj hch ▸ hclosed) hopen
        · cases hn
      · rename_i hopen
        have hnone : signals seg = [] := by
          have hnil := mt h.sent.2 (by rw [hsent]; exact Bool.false_ne_true)
          rw [not_not, signals_concat] at hnil
          simpa using hnil
        refine ⟨⟨fun t => ?_, ?_, ?_, fun _ => rfl, fun hs => ?_, fun hs => ?_, fun n hn hn' => ?_⟩,
          fun n hn hn' => rfl, fun _ hask t hact => ?_⟩
        · rw [h.tools, Active, Active, lastStatus_concat, lastStatus_concat]
        · rw [signals_concat, hnone]
          exact le_rfl
        · simp [signals_concat]
        · cases hs
        · cases hs
        · exact h.sender n (by simpa [turn_concat] using hn) hn'
        · have hask' : ¬ Asked (seg ++ [⟨id, call, { accepted, channel }⟩]) .immediate := by
            simpa [asked_concat] using hask
          have hact' : t ∈ c.activeTools := by
            rw [h.tools]
            simpa [Active, lastStatus_concat] using hact
          have hreq : c.requested ≠ some .immediate := mt (h.immediate hsent).1 hask'
          cases hr : c.requested with
          | none =>
            rw [PendingTurnControl.ready, hr] at hready
            cases hready
          | some mode =>
            cases mode with
            | immediate => exact hreq hr
            | afterTool =>
              rw [PendingTurnControl.ready, hr] at hready
              rw [of_decide_eq_true hready] at hact'
              exact Finset.notMem_empty t hact'
  · rename_i hready
    refine ⟨h, fun n hn hopen => by simpa using hready, fun hsome => by cases hsome⟩

end Entry

/-! ## Runs -/

/-- What holds of an attempt in every run. -/
structure Sound (w : Watched) (id : String) : Prop where
  fits : Fits (w.broker.entry id) (segment id w.past) w.broker.closed
  settled : Settled (w.broker.entry id) w.broker.closed
  opened : (w.broker.turns id).isSome = true ↔ Opened (segment id w.past)
  channels : ∀ n ∈ w.broker.closed, n < w.broker.channels

/-- The next call for the attempt sends no signal while a tool is active, unless somebody asked
for that. -/
def Careful (w : Watched) (id : String) (call : Call) : Prop :=
  (w.broker.serve id call).2.signal.isSome →
    ¬ Asked (segment id (watch w (.call id call)).past) .immediate →
      ∀ t, ¬ Active (segment id (watch w (.call id call)).past) t

section Runs

variable {w : Watched} {id other : String}

theorem entry_store_self (b : AcpTurnControlBroker) (c : PendingTurnControl) :
    (b.store id (some c)).entry id = c := by
  simp [AcpTurnControlBroker.entry, AcpTurnControlBroker.store]

/-- A call for another attempt. -/
theorem serve_other (b : AcpTurnControlBroker) (hne : other ≠ id) (call : Call) :
    (b.serve other call).1.turns id = b.turns id ∧ (b.serve other call).1.closed = b.closed ∧
      b.channels ≤ (b.serve other call).1.channels := by
  have hupdate (c : Option PendingTurnControl) : (b.store other c).turns id = b.turns id :=
    Function.update_of_ne (Ne.symm hne) _ _
  cases call with
  | beginAttempt => exact ⟨hupdate _, rfl, le_rfl⟩
  | requestInterrupt mode =>
    unfold AcpTurnControlBroker.serve
    dsimp only
    split
    · exact ⟨rfl, rfl, le_rfl⟩
    · split
      · exact ⟨rfl, rfl, le_rfl⟩
      · exact ⟨hupdate _, rfl, le_rfl⟩
  | acknowledgeInterrupt => exact ⟨hupdate _, rfl, le_rfl⟩
  | register => exact ⟨hupdate _, rfl, Nat.le_succ _⟩
  | observeUpdate update => exact ⟨hupdate _, rfl, le_rfl⟩
  | finishAttempt => exact ⟨hupdate _, rfl, le_rfl⟩

theorem segment_watch (call : Call) : segment id (watch w (.call id call)).past =
    if call = .finishAttempt then []
    else segment id w.past ++ [⟨id, call, (w.broker.serve id call).2⟩] := by
  show segment id (w.past ++ [_]) = _
  rw [segment_concat, if_pos rfl]

/-- A call that changes the entry as it appends itself, and then sends what is ready. -/
theorem sound_of_send {c : PendingTurnControl} {call : Call} {accepted : Bool} {channel : Option ℕ}
    {b : AcpTurnControlBroker} (hfinish : call ≠ .finishAttempt)
    (hfits : Fits c (segment id w.past ++ [⟨id, call, { accepted, channel }⟩]) w.broker.closed)
    (hopen : Opened (segment id w.past) ∨ call.opens = true)
    (hb : b.turns id = some (c.sendIfReady w.broker.closed w.broker.now).1)
    (hclosed : b.closed = w.broker.closed) (hchannels : ∀ n ∈ w.broker.closed, n < b.channels)
    (hserve : w.broker.serve id call =
      (b, ⟨accepted, (c.sendIfReady w.broker.closed w.broker.now).2, channel⟩)) :
    Sound (watch w (.call id call)) id ∧ Careful w id call := by
  obtain ⟨hf, hs, hcareful⟩ := sendIfReady_fits w.broker.now hfits
  have hseg : segment id (watch w (.call id call)).past = segment id w.past ++
      [⟨id, call, ⟨accepted, (c.sendIfReady w.broker.closed w.broker.now).2, channel⟩⟩] := by
    rw [segment_watch, if_neg hfinish, hserve]
  have hbroker : (watch w (.call id call)).broker = b := by
    show (w.broker.serve id call).1 = b
    rw [hserve]
  have hentry : b.entry id = (c.sendIfReady w.broker.closed w.broker.now).1 := by
    rw [AcpTurnControlBroker.entry, hb, Option.getD_some]
  constructor
  · refine ⟨?_, ?_, ?_, ?_⟩
    · rw [hbroker, hseg, hentry, hclosed]
      exact hf
    · rw [hbroker, hentry, hclosed]
      exact hs
    · rw [hbroker, hseg, hb, opened_concat]
      exact iff_of_true rfl hopen
    · rw [hbroker, hclosed]
      exact hchannels
  · unfold Careful
    rw [hseg, hserve]
    exact hcareful

/-- A call that sends nothing and leaves the entry as it is, but for its delivery. -/
theorem sound_of_quiet {c : PendingTurnControl} {call : Call} {b : AcpTurnControlBroker}
    (h : Sound w id) (hfinish : call ≠ .finishAttempt) (hcall : ∀ t, call.statusOf t = none)
    (hc : ∀ seg, Fits (w.broker.entry id) seg w.broker.closed → Fits c seg w.broker.closed)
    (hset : Settled c w.broker.closed) (hentry : b.entry id = c)
    (hopen : (b.turns id).isSome = true ↔ Opened (segment id w.past) ∨ call.opens = true)
    (hclosed : b.closed = w.broker.closed) (hchannels : b.channels = w.broker.channels)
    (hserve : w.broker.serve id call = (b, {})) :
    Sound (watch w (.call id call)) id ∧ Careful w id call := by
  have hseg : segment id (watch w (.call id call)).past =
      segment id w.past ++ [⟨id, call, {}⟩] := by
    rw [segment_watch, if_neg hfinish, hserve]
  have hbroker : (watch w (.call id call)).broker = b := by
    show (w.broker.serve id call).1 = b
    rw [hserve]
  constructor
  · refine ⟨?_, ?_, ?_, ?_⟩
    · rw [hbroker, hseg, hentry, hclosed]
      exact (hc _ h.fits).neutral hcall
    · rw [hbroker, hentry, hclosed]
      exact hset
    · rw [hbroker, hseg, opened_concat]
      exact hopen
    · rw [hbroker, hclosed, hchannels]
      exact h.channels
  · intro hsome
    rw [hserve] at hsome
    cases hsome

/-- **What a call for the attempt keeps.** -/
theorem call_sound (h : Sound w id) (call : Call) :
    Sound (watch w (.call id call)) id ∧ Careful w id call := by
  have hstored (c : Option PendingTurnControl) : (w.broker.store id c).turns id = c :=
    Function.update_self _ _ _
  cases call with
  | beginAttempt =>
    refine sound_of_quiet h Call.noConfusion (fun _ => rfl) (fun _ hf => hf) h.settled
      (entry_store_self _ _) ?_ rfl rfl rfl
    rw [hstored]
    exact iff_of_true rfl (.inr rfl)
  | requestInterrupt mode =>
    have hquiet (hserve : w.broker.serve id (.requestInterrupt mode) = (w.broker, {})) :
        Sound (watch w (.call id (.requestInterrupt mode))) id ∧
          Careful w id (.requestInterrupt mode) :=
      sound_of_quiet h Call.noConfusion (fun _ => rfl) (fun _ hf => hf) h.settled rfl
        (by rw [h.opened]; simp [Call.opens]) rfl rfl hserve
    cases hturn : w.broker.turns id with
    | none => exact hquiet (by simp only [AcpTurnControlBroker.serve, hturn])
    | some c =>
      have hentry : w.broker.entry id = c := by
        rw [AcpTurnControlBroker.entry, hturn, Option.getD_some]
      cases hsent : c.sent with
      | true => exact hquiet (by simp only [AcpTurnControlBroker.serve, hturn, hsent, if_true])
      | false =>
        have hopened : Opened (segment id w.past) := h.opened.1 (by rw [hturn]; rfl)
        have hfits : Fits c (segment id w.past) w.broker.closed := hentry ▸ h.fits
        refine sound_of_send Call.noConfusion (hfits.ask hsent mode) (.inl hopened)
          (hstored _) rfl h.channels ?_
        simp only [AcpTurnControlBroker.serve, hturn, hsent, Bool.false_eq_true, if_false]
  | acknowledgeInterrupt =>
    refine sound_of_quiet (c := (w.broker.entry id).acknowledge) h Call.noConfusion
      (b := w.broker.store id ((w.broker.turns id).map PendingTurnControl.acknowledge))
      (fun _ => rfl) ?_ ?_ ?_ ?_ rfl rfl rfl
    · intro seg hf
      unfold PendingTurnControl.acknowledge
      split
      · exact ⟨hf.tools, hf.once, hf.sent, hf.idle, hf.immediate, hf.pending, hf.sender⟩
      · exact hf
    · unfold PendingTurnControl.acknowledge
      split
      · exact h.settled
      · exact h.settled
    · unfold AcpTurnControlBroker.entry
      rw [hstored]
      cases w.broker.turns id with
      | none => rfl
      | some c => rfl
    · rw [hstored, Option.isSome_map, h.opened]
      simp [Call.opens]
  | register =>
    have hnew : w.broker.channels ∉ w.broker.closed := fun hmem =>
      absurd (h.channels _ hmem) (lt_irrefl _)
    have hserve : w.broker.serve id .register = ({ w.broker.store id (some
        ({ w.broker.entry id with sender := some w.broker.channels }.sendIfReady
          w.broker.closed w.broker.now).1) with channels := w.broker.channels + 1 },
        ⟨false, ({ w.broker.entry id with sender := some w.broker.channels }.sendIfReady
          w.broker.closed w.broker.now).2, some w.broker.channels⟩) := rfl
    refine sound_of_send Call.noConfusion (h.fits.register _) (.inr rfl) ?_ ?_ ?_ hserve
    · exact hstored _
    · rfl
    · exact fun n hn => Nat.lt_succ_of_lt (h.channels n hn)
  | observeUpdate update =>
    exact sound_of_send Call.noConfusion (h.fits.observe update) (.inr rfl) (hstored _) rfl
      h.channels rfl
  | finishAttempt =>
    have hseg : segment id (watch w (.call id .finishAttempt)).past = [] := by
      rw [segment_watch, if_pos rfl]
    have hentry : (watch w (.call id .finishAttempt)).broker.entry id = {} := by
      show ((w.broker.store id none).turns id).getD {} = {}
      rw [hstored, Option.getD_none]
    refine ⟨⟨?_, ?_, ?_, h.channels⟩, fun hsome => by cases hsome⟩
    · rw [hseg, hentry]
      exact .default
    · rw [hentry]
      exact fun n hn => by cases hn
    · rw [hseg]
      show ((w.broker.store id none).turns id).isSome = true ↔ _
      rw [hstored]
      simp [Opened]

theorem watch_sound (h : Sound w id) (e : Event) : Sound (watch w e) id := by
  cases e with
  | call other call =>
    by_cases hid : other = id
    · subst hid
      exact (call_sound h call).1
    · obtain ⟨hturn, hclosed, hchannels⟩ := serve_other w.broker hid call
      have hseg : segment id (watch w (.call other call)).past = segment id w.past := by
        show segment id (w.past ++ [_]) = _
        rw [segment_concat, if_neg hid]
      have hentry : (watch w (.call other call)).broker.entry id = w.broker.entry id := by
        unfold AcpTurnControlBroker.entry
        exact congrArg (fun c => Option.getD c {}) hturn
      have hclosed' : (watch w (.call other call)).broker.closed = w.broker.closed := hclosed
      refine ⟨?_, ?_, ?_, ?_⟩
      · rw [hentry, hseg, hclosed']
        exact h.fits
      · rw [hentry, hclosed']
        exact h.settled
      · rw [hseg]
        exact (congrArg (fun c => c.isSome = true) hturn).to_iff.trans h.opened
      · rw [hclosed']
        exact fun n hn => (h.channels n hn).trans_le hchannels
  | drop channel =>
    unfold watch
    dsimp only
    split
    · rename_i hlt
      have hsub : ∀ n, n ∉ insert channel w.broker.closed → n ∉ w.broker.closed :=
        fun n hn hmem => hn (Finset.mem_insert_of_mem hmem)
      refine ⟨?_, fun n hn hn' => h.settled n hn (hsub n hn'), h.opened, ?_⟩
      · have hf := h.fits
        exact ⟨hf.tools, hf.once, hf.sent, hf.idle, hf.immediate, hf.pending,
          fun n hn hn' => hf.sender n hn (hsub n hn')⟩
      · intro n hn
        rcases Finset.mem_insert.1 hn with rfl | hn
        · exact hlt
        · exact h.channels n hn
    · exact h
  | tick nanos => exact ⟨h.fits, h.settled, h.opened, h.channels⟩

/-! ### What a segment is worth -/

theorem Sound.start : Sound {} id where
  fits := .default
  settled n hn := by cases hn
  opened := by simp [segment, Opened]
  channels n hn := by cases hn

theorem Sound.accepted_iff (h : Sound w id) (mode : AcpInterruptMode) :
    (w.broker.serve id (.requestInterrupt mode)).2.accepted = true ↔
      Opened (segment id w.past) ∧ signals (segment id w.past) = [] := by
  rw [← h.opened, ← not_ne_iff (a := signals (segment id w.past)), ← h.fits.sent]
  unfold AcpTurnControlBroker.serve AcpTurnControlBroker.entry
  cases w.broker.turns id with
  | none => simp
  | some c => cases hs : c.sent <;> simp [hs]

theorem Sound.not_weakened (h : Sound w id) (hask : Asked (segment id w.past) .immediate)
    (hnone : signals (segment id w.past) = []) :
    (w.broker.entry id).requested = some .immediate := by
  have hsent : (w.broker.entry id).sent = false := by
    rw [← Bool.not_eq_true, h.fits.sent]
    exact fun hne => hne hnone
  exact (h.fits.immediate hsent).2 hask

/-- A request whose condition holds and that is not signalled has no turn to be sent to. -/
theorem Sound.delivered (h : Sound w id)
    (hask : Asked (segment id w.past) .immediate ∨
      Asked (segment id w.past) .afterTool ∧ ∀ t, ¬ Active (segment id w.past) t)
    (hnone : signals (segment id w.past) = []) {n : ℕ} (hn : turn (segment id w.past) = some n) :
    n ∈ w.broker.closed := by
  by_contra hopen
  have hidle := h.settled n (h.fits.sender n hn hopen) hopen
  have hsent : (w.broker.entry id).sent = false := by
    rw [← Bool.not_eq_true, h.fits.sent]
    exact fun hne => hne hnone
  rcases hask with himm | ⟨hafter, hactive⟩
  · rw [PendingTurnControl.ready, h.not_weakened himm hnone] at hidle
    cases hidle
  · have hempty : (w.broker.entry id).activeTools = ∅ :=
      Finset.eq_empty_of_forall_notMem fun t ht => hactive t ((h.fits.tools t).1 ht)
    cases hr : (w.broker.entry id).requested with
    | none => exact ((h.fits.pending hsent).1 hr).2 hafter
    | some mode =>
      cases mode with
      | immediate =>
        rw [PendingTurnControl.ready, hr] at hidle
        cases hidle
      | afterTool =>
        rw [PendingTurnControl.ready, hr] at hidle
        exact of_decide_eq_false hidle hempty

end Runs

/-! ## Late calls -/

/-- Only an attempt that was begun and is not finished observes an update or registers a turn. -/
def Event.Timely (id : String) (w : Watched) : Event → Prop
  | .call other (.observeUpdate _) | .call other .register =>
      other = id → Begun (segment id w.past)
  | _ => True

section Late

variable {w : Watched} {id : String}

/-- A timely call opens an entry only of an attempt that was begun. -/
theorem watch_begun (h : Opened (segment id w.past) → Begun (segment id w.past)) {e : Event}
    (he : e.Timely id w) :
    Opened (segment id (watch w e).past) → Begun (segment id (watch w e).past) := by
  cases e with
  | call other call =>
    show Opened (segment id (w.past ++ [_])) → Begun (segment id (w.past ++ [_]))
    rw [segment_concat]
    split
    · rename_i hid
      split
      · rintro ⟨r, hr, -⟩
        cases hr
      · rw [opened_concat, begun_concat]
        rintro (hold | hopens)
        · exact .inl (h hold)
        · cases call with
          | beginAttempt => exact .inr rfl
          | register => exact .inl (he hid)
          | observeUpdate update => exact .inl (he hid)
          | requestInterrupt mode => cases hopens
          | acknowledgeInterrupt => cases hopens
          | finishAttempt => cases hopens
    · exact h
  | drop channel =>
    unfold watch
    dsimp only
    split
    · exact h
    · exact h
  | tick nanos => exact h

end Late

/-- **Interrupts are delivered once, and not inside a tool unless asked.**  For every run of
calls and every attempt, with its segment since it was finished last: at most one signal was
sent; the next call sends no signal while a tool is active, unless an immediate request was
accepted; an accepted immediate request stays one until it is signalled; an accepted request
whose condition holds has been signalled, or the turn that was registered last is gone; and a
request is accepted exactly if some call has made an entry and no signal was sent.  If updates
are observed and turns registered only between the beginning of the attempt and its end, then
no request is accepted outside of that. -/
theorem interrupts_delivered (events : List Event) (id : String) :
    let w := runOps watch {} events
    let seg := segment id w.past
    (signals seg).length ≤ 1 ∧
    (∀ call, Careful w id call) ∧
    (Asked seg .immediate → signals seg = [] →
      (w.broker.entry id).requested = some .immediate) ∧
    ((Asked seg .immediate ∨ Asked seg .afterTool ∧ ∀ t, ¬ Active seg t) → signals seg = [] →
      ∀ n, turn seg = some n → n ∈ w.broker.closed) ∧
    (∀ mode, (w.broker.serve id (.requestInterrupt mode)).2.accepted = true ↔
      Opened seg ∧ signals seg = []) ∧
    (Along watch (fun w e => e.Timely id w) {} events → ¬ Begun seg → ∀ mode,
      (w.broker.serve id (.requestInterrupt mode)).2.accepted = false) := by
  intro w seg
  have hsound : Sound w id :=
    runOps_invariant (I := (Sound · id)) (fun _ e h => watch_sound h e) .start events
  refine ⟨hsound.fits.once, fun call => (call_sound hsound call).2, hsound.not_weakened,
    fun hask hnone n hn => hsound.delivered hask hnone hn, hsound.accepted_iff, ?_⟩
  intro htimely hnot mode
  have hbegun : Opened seg → Begun seg := htimely.invariant
    (I := fun w => Opened (segment id w.past) → Begun (segment id w.past))
    (fun _ _ h he => watch_begun h he) (fun h => by simp [segment, Opened] at h)
  rw [← Bool.not_eq_true, hsound.accepted_iff]
  exact fun h => hnot (hbegun h.1)

/-- An update that arrives after the attempt was finished makes an entry, and the request after
it is accepted. -/
theorem late_update_accepts :
    let w := runOps watch {} [.call "attempt" .beginAttempt, .call "attempt" .finishAttempt,
      .call "attempt" (.observeUpdate (.toolCall "tool" .inProgress))]
    ¬ Begun (segment "attempt" w.past) ∧
      (w.broker.serve "attempt" (.requestInterrupt .afterTool)).2.accepted = true := by
  constructor
  · rintro ⟨r, hr, hcall⟩
    obtain rfl := List.mem_singleton.1 hr
    cases hcall
  · decide +kernel

end XpressClaw.Workers
