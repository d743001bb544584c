import Mathlib.Algebra.Ring.Int.Defs
import XpressClaw.Github.Activities
import XpressClaw.Lib.Runs

/-!
# Review feedback of a monitored pull request

`poll_reviews_once` for one pull request, poll after poll, and the follow-ups it enqueues.

* `MonitoredPullRequest` — a row of `task_pull_requests` with its times and its cursor.
* `poll` — one poll, with every check before the snapshot is looked at.
* `Watch`, `Watch.step` — the row and what the polls have seen and enqueued, over polls and
  repeated registrations.
* `Bounds` — the recorded activity is the greatest one that a completed poll has seen.
* `feedback_followed` — no new activity is reported twice, and none is missed where every poll
  that sees a new one sees one that comes after all the old ones.
-/

namespace XpressClaw.Github

open Lib

/-! ## The row -/

def seconds (n : ℤ) : ℤ := n * 10 ^ 9

def minPollIntervalSeconds : ℤ := 15

def maxPollIntervalSeconds : ℤ := 300

def monitorForDays : ℤ := 14

def unresolvedReminderSeconds : ℤ := 60 * 60

/-- A row of `task_pull_requests` that is monitored. -/
structure MonitoredPullRequest extends TaskPullRequest where
  startedAt : ℤ
  expiresAt : ℤ
  nextPollAt : Option ℤ
  pollIntervalSeconds : ℤ := minPollIntervalSeconds
  lastCheckedAt : Option ℤ := none
  lastActivityAt : Option ℤ := none
  lastFeedbackAt : Option ℤ := none
  afterCursor : Option String := none
  lastError : Option String := none
  deriving DecidableEq

/-- The row that a first registration inserts. -/
def registered (row : TaskPullRequest) (now : ℤ) : MonitoredPullRequest :=
  { row with
    status := .waiting
    startedAt := now - seconds (5 * 60)
    expiresAt := now + seconds (monitorForDays * 24 * 60 * 60)
    nextPollAt := some now }

namespace MonitoredPullRequest

variable (item : MonitoredPullRequest)

/-- `ON CONFLICT … DO UPDATE` of a registration. -/
def register (agentId url : String) (now : ℤ) : MonitoredPullRequest :=
  { item with
    toTaskPullRequest := rearm agentId url item.toTaskPullRequest
    expiresAt :=
      if item.status.satisfied then item.expiresAt
      else now + seconds (monitorForDays * 24 * 60 * 60)
    nextPollAt := if item.status.satisfied then none else some now
    pollIntervalSeconds := minPollIntervalSeconds
    lastError := none }

/-- The row leaves the polls. -/
def close (status : PullStatus) (now : ℤ) (error : Option String) : MonitoredPullRequest :=
  { item with status, nextPollAt := none, lastCheckedAt := some now, lastError := error }

def recordFeedback (activity : Option ReviewActivity) (now : ℤ) : MonitoredPullRequest :=
  { item with
    lastActivityAt := (activity.map (·.at_)).or item.lastActivityAt
    afterCursor := (activity.map (·.cursor)).or item.afterCursor
    lastFeedbackAt := some now
    nextPollAt := some now
    pollIntervalSeconds := minPollIntervalSeconds
    lastCheckedAt := some now
    lastError := none }

def defer (now : ℤ) (message : Option String) : MonitoredPullRequest :=
  let delay := max minPollIntervalSeconds (min maxPollIntervalSeconds item.pollIntervalSeconds)
  { item with
    nextPollAt := some (now + seconds delay)
    pollIntervalSeconds := min (delay * 2) maxPollIntervalSeconds
    lastCheckedAt := some now
    lastError := message }

/-- The filter of `latest_new_activity`. -/
def isNew (activity : ReviewActivity) : Bool :=
  let boundary := item.lastActivityAt.getD item.startedAt
  boundary < activity.at_ ||
    (activity.at_ = boundary && item.afterCursor.all (· < activity.cursor))

def latestNewActivity (activities : List ReviewActivity) : Option ReviewActivity :=
  newest (activities.filter item.isNew)

end MonitoredPullRequest

/-! ## A poll -/

/-- How the last transactions of a poll end. -/
inductive Ending where
  | committed
  /-- The task was finished since the poll looked at it, and nothing is enqueued. -/
  | taskFinished
  /-- The transaction that changes the task fails. -/
  | failed
  /-- The process ends after that transaction, before the feedback is recorded. -/
  | crashed
  deriving DecidableEq

/-- What a poll finds. -/
structure Poll where
  now : ℤ
  /-- The task, if it is still there, and its agent. -/
  task : Option (Tasks.TaskStatus × Option String)
  /-- The agent is in the configuration. -/
  configured : Bool
  /-- `discover_active_github_access`, with the owner and the name of the repository. -/
  access : Except String (Option (String × String))
  fetched : Except String ReviewSnapshot
  dispatchInFlight : Bool
  ending : Ending := .committed

structure FollowUp where
  latest : Option ReviewActivity
  unresolvedThreads : ℕ
  deriving DecidableEq

/-- A poll that got as far as the activities: what it saw, what it enqueued, and whether it came
to its end. -/
structure Look where
  activities : List ReviewActivity
  followUp : Option FollowUp
  completed : Bool

namespace MonitoredPullRequest

variable (item : MonitoredPullRequest) (p : Poll)

/-- Threads are unresolved and nothing was said about them for an hour. -/
def reminderDue (unresolvedThreads : ℕ) : Bool :=
  0 < unresolvedThreads &&
    item.lastFeedbackAt.all (fun last => seconds unresolvedReminderSeconds ≤ p.now - last) &&
    !p.dispatchInFlight

/-- The feedback of a pull request that is neither done nor closed. -/
def feedback (snapshot : ReviewSnapshot) : MonitoredPullRequest × Look :=
  let latest := item.latestNewActivity snapshot.activities
  let activities := snapshot.activities
  let followUp : FollowUp := { latest, unresolvedThreads := snapshot.unresolvedThreads }
  if latest.isSome || item.reminderDue p snapshot.unresolvedThreads then
    match p.ending with
    | .committed =>
        (item.recordFeedback latest p.now,
          { activities, followUp := some followUp, completed := true })
    | .taskFinished =>
        (item.recordFeedback latest p.now, { activities, followUp := none, completed := true })
    | .failed => (item, { activities, followUp := none, completed := false })
    | .crashed => (item, { activities, followUp := some followUp, completed := false })
  else (item.defer p.now none, { activities, followUp := none, completed := true })

/-- `require_user_attention` and `finalize_if_satisfied`, as far as the row goes. -/
def settle (status : PullStatus) (error : Option String) : MonitoredPullRequest :=
  match p.ending with
  | .failed => item
  | .taskFinished => item.close .cancelled p.now none
  | .committed | .crashed => item.close status p.now error

/-- The part of a poll that follows the assignment. -/
def pollAssigned : MonitoredPullRequest × Option Look :=
  if item.expiresAt ≤ p.now then
    (item.settle p .attention (some ("XpressClaw monitored " ++ item.url ++
      " for 14 days without approval or merge.")), none)
  else if !p.configured then
    (item.defer p.now (some "the assigned agent is no longer configured"), none)
  else
    match p.access with
    | .error _ =>
        (item.defer p.now (some "the assigned Agent workspace or repository is unavailable"), none)
    | .ok none =>
        (item.defer p.now (some "project-scoped GitHub access is unavailable"), none)
    | .ok (some (owner, repo)) =>
        if Text.asciiLower owner ≠ Text.asciiLower item.key.owner ∨
            Text.asciiLower repo ≠ Text.asciiLower item.key.repo then
          (item.defer p.now
            (some "the registered pull request no longer matches the agent repository"), none)
        else
          match p.fetched with
          | .error error => (item.defer p.now (some error), none)
          | .ok snapshot =>
              match snapshot.outcome with
              | some outcome => (item.settle p outcome.status none, none)
              | none =>
                  if snapshot.closedWithoutMerge then
                    (item.settle p .attention (some (item.url ++
                      " was closed without being merged or approved.")), none)
                  else ((item.feedback p snapshot).1, some (item.feedback p snapshot).2)

/-- `poll_reviews_once` for one of the rows. -/
def poll : MonitoredPullRequest × Option Look :=
  if item.status ≠ .waiting then (item, none)
  else if item.nextPollAt.any (p.now < ·) then (item, none)
  else
    match p.task with
    | none => (item, none)
    | some (status, agentId) =>
        if finished status then (item.close .cancelled p.now none, none)
        else
          match agentId.filter fun a => !Text.isBlank a with
          | none => (item.defer p.now (some "the task no longer has an assigned agent"), none)
          | some agentId => ({ item with agentId := agentId } : MonitoredPullRequest).pollAssigned p

end MonitoredPullRequest

/-! ## Polls -/

/-- The row, and what the polls have seen and enqueued. -/
structure Watch where
  item : MonitoredPullRequest
  looks : List Look := []

inductive WatchOp where
  | poll (p : Poll)
  | register (agentId url : String) (now : ℤ)

namespace Watch

def step (w : Watch) : WatchOp → Watch
  | .poll p => { item := (w.item.poll p).1, looks := w.looks ++ (w.item.poll p).2.toList }
  | .register agentId url now => { w with item := w.item.register agentId url now }

/-- What completed polls have seen. -/
def seen (w : Watch) : List ReviewActivity :=
  (w.looks.filter (·.completed)).flatMap (·.activities)

/-- A follow-up reports an activity that its poll has seen, and no earlier completed poll. -/
def NoRepeat (w : Watch) : Prop :=
  (∀ e ∈ w.looks, ∀ f m, e.followUp = some f → f.latest = some m → m ∈ e.activities) ∧
    w.looks.Pairwise fun before e => before.completed = true →
      ∀ f m, e.followUp = some f → f.latest = some m → m ∉ before.activities

/-- Every activity since the start of the monitoring that a completed poll has seen was seen by a
poll that enqueued a follow-up for new activity. -/
def Followed (w : Watch) : Prop :=
  ∀ e ∈ w.looks, e.completed = true → ∀ a ∈ e.activities, w.item.startedAt < a.at_ →
    ∃ e' ∈ w.looks, e'.followUp.any (·.latest.isSome) = true ∧ a ∈ e'.activities

instance (w : Watch) : Decidable w.Followed :=
  inferInstanceAs (Decidable (∀ e ∈ w.looks, e.completed = true → ∀ a ∈ e.activities,
    w.item.startedAt < a.at_ →
      ∃ e' ∈ w.looks, e'.followUp.any (·.latest.isSome) = true ∧ a ∈ e'.activities))

/-- A poll of an open pull request that sees an activity for the first time sees one that comes
after all those seen before; and the task is not finished under way. -/
def Separated (w : Watch) : WatchOp → Prop
  | .poll p => ∀ snapshot, p.fetched = .ok snapshot → snapshot.outcome = none →
      snapshot.closedWithoutMerge = false →
      p.ending ≠ .taskFinished ∧
        ((∃ a ∈ snapshot.activities, w.item.startedAt < a.at_ ∧ a ∉ w.seen) →
          ∃ a ∈ snapshot.activities, w.item.startedAt < a.at_ ∧ ∀ o ∈ w.seen, o.key < a.key)
  | .register .. => True

end Watch

/-! ## The mark -/

/-- What `latest_new_activity` reads of a row. -/
def MonitoredPullRequest.mark (item : MonitoredPullRequest) : ℤ × Option ℤ × Option String :=
  (item.startedAt, item.lastActivityAt, item.afterCursor)

section Marks

variable {item item' : MonitoredPullRequest} {seen activities : List ReviewActivity}
  {a o : ReviewActivity}

theorem isNew_of_none (ht : item.lastActivityAt = none) (hc : item.afterCursor = none) :
    item.isNew a = true ↔ item.startedAt ≤ a.at_ := by
  unfold MonitoredPullRequest.isNew
  rw [ht, hc]
  simp only [Option.getD_none, Option.all_none, Bool.and_true, Bool.or_eq_true,
    decide_eq_true_eq]
  omega

theorem isNew_of_some (ht : item.lastActivityAt = some o.at_)
    (hc : item.afterCursor = some o.cursor) : item.isNew a = true ↔ o.key < a.key := by
  unfold MonitoredPullRequest.isNew ReviewActivity.key
  rw [ht, hc, Prod.Lex.toLex_lt_toLex]
  simp only [Option.getD_some, Option.all_some, Bool.or_eq_true, Bool.and_eq_true,
    decide_eq_true_eq]
  rw [eq_comm (a := a.at_)]

theorem key_le_of_lt (h : a.at_ < o.at_) : a.key ≤ o.key := by
  rw [ReviewActivity.key, ReviewActivity.key, Prod.Lex.toLex_le_toLex]
  exact Or.inl h

theorem at_le_of_key_lt (h : o.key < a.key) : o.at_ ≤ a.at_ := by
  rw [ReviewActivity.key, ReviewActivity.key, Prod.Lex.toLex_lt_toLex] at h
  rcases h with h | h
  · exact le_of_lt h
  · exact le_of_eq h.1

/-- The recorded activity is the greatest one seen since the start, if there is one. -/
def Bounds (item : MonitoredPullRequest) (seen : List ReviewActivity) : Prop :=
  (item.lastActivityAt = none ∧ item.afterCursor = none ∧ ∀ a ∈ seen, a.at_ < item.startedAt) ∨
    ∃ o ∈ seen, item.lastActivityAt = some o.at_ ∧ item.afterCursor = some o.cursor ∧
      item.startedAt ≤ o.at_ ∧ ∀ a ∈ seen, a.key ≤ o.key

theorem Bounds.congr (h : Bounds item seen) (hm : item'.mark = item.mark) :
    Bounds item' seen := by
  unfold MonitoredPullRequest.mark at hm
  simp only [Prod.mk.injEq] at hm
  unfold Bounds
  rwa [hm.1, hm.2.1, hm.2.2]

theorem Bounds.not_isNew (h : Bounds item seen) (ha : a ∈ seen) : ¬ item.isNew a = true := by
  rcases h with ⟨ht, hc, hall⟩ | ⟨o, -, ht, hc, -, hall⟩
  · rw [isNew_of_none ht hc]
    have := hall a ha
    omega
  · rw [isNew_of_some ht hc]
    exact not_lt.2 (hall a ha)

theorem Bounds.isNew_of_after (h : Bounds item seen) (hstart : item.startedAt < a.at_)
    (hafter : ∀ o ∈ seen, o.key < a.key) : item.isNew a = true := by
  rcases h with ⟨ht, hc, -⟩ | ⟨o, ho, ht, hc, -, -⟩
  · rw [isNew_of_none ht hc]
    exact hstart.le
  · rw [isNew_of_some ht hc]
    exact hafter o ho

theorem latestNewActivity_eq_none_iff :
    item.latestNewActivity activities = none ↔ ∀ a ∈ activities, ¬ item.isNew a = true := by
  rw [MonitoredPullRequest.latestNewActivity, newest_eq_none_iff, List.filter_eq_nil_iff]

/-- The bounds after a poll that found nothing new. -/
theorem Bounds.append_of_none (h : Bounds item seen)
    (hnone : item.latestNewActivity activities = none) : Bounds item (seen ++ activities) := by
  rw [latestNewActivity_eq_none_iff] at hnone
  rcases h with ⟨ht, hc, hall⟩ | ⟨o, ho, ht, hc, hstart, hall⟩
  · refine Or.inl ⟨ht, hc, fun a ha => ?_⟩
    rcases List.mem_append.1 ha with ha | ha
    · exact hall a ha
    · have := hnone a ha
      rw [isNew_of_none ht hc] at this
      omega
  · refine Or.inr ⟨o, List.mem_append_left _ ho, ht, hc, hstart, fun a ha => ?_⟩
    rcases List.mem_append.1 ha with ha | ha
    · exact hall a ha
    · have := hnone a ha
      rwa [isNew_of_some ht hc, not_lt] at this

/-- The bounds after a poll that recorded its newest activity. -/
theorem Bounds.append_of_some (h : Bounds item seen) {m : ReviewActivity}
    (hm : item.latestNewActivity activities = some m)
    (hmark : item'.mark = (item.startedAt, some m.at_, some m.cursor)) :
    Bounds item' (seen ++ activities) := by
  obtain ⟨hmem, hle⟩ := newest_spec hm
  rw [List.mem_filter] at hmem
  unfold MonitoredPullRequest.mark at hmark
  simp only [Prod.mk.injEq] at hmark
  obtain ⟨hs, ht, hc⟩ := hmark
  have hgreatest : ∀ a ∈ seen ++ activities, item.isNew a = true → a.key ≤ m.key := by
    intro a ha hnew
    rcases List.mem_append.1 ha with ha | ha
    · exact absurd hnew (h.not_isNew ha)
    · exact hle a (List.mem_filter.2 ⟨ha, hnew⟩)
  have hrest : item.startedAt ≤ m.at_ ∧ ∀ a, ¬ item.isNew a = true → a.key ≤ m.key := by
    rcases h with ⟨ht, hc, -⟩ | ⟨o, -, ht, hc, hstart, -⟩
    · have hm' := (isNew_of_none ht hc).1 hmem.2
      refine ⟨hm', fun a ha => key_le_of_lt ?_⟩
      rw [isNew_of_none ht hc] at ha
      omega
    · have hm' := (isNew_of_some ht hc).1 hmem.2
      refine ⟨hstart.trans (at_le_of_key_lt hm'), fun a ha => ?_⟩
      rw [isNew_of_some ht hc, not_lt] at ha
      exact ha.trans hm'.le
  refine Or.inr ⟨m, List.mem_append_right _ hmem.1, ht, hc, ?_, fun a ha => ?_⟩
  · rw [hs]
    exact hrest.1
  · by_cases hnew : item.isNew a = true
    · exact hgreatest a ha hnew
    · exact hrest.2 a hnew

end Marks

/-! ## A step -/

section Steps

variable {item : MonitoredPullRequest} {p : Poll} {snapshot : ReviewSnapshot} {w : Watch}

@[simp] theorem mark_defer (now : ℤ) (message : Option String) :
    (item.defer now message).mark = item.mark := rfl

@[simp] theorem mark_register (agentId url : String) (now : ℤ) :
    (item.register agentId url now).mark = item.mark := rfl

@[simp] theorem mark_settle (status : PullStatus) (error : Option String) :
    (item.settle p status error).mark = item.mark := by
  unfold MonitoredPullRequest.settle
  split <;> rfl

@[simp] theorem mark_recordFeedback_none (now : ℤ) :
    (item.recordFeedback none now).mark = item.mark := by
  simp [MonitoredPullRequest.mark, MonitoredPullRequest.recordFeedback]

theorem mark_recordFeedback_some (m : ReviewActivity) (now : ℤ) :
    (item.recordFeedback (some m) now).mark = (item.startedAt, some m.at_, some m.cursor) := rfl

theorem pollAssigned_cases (item : MonitoredPullRequest) (p : Poll) :
    ((item.pollAssigned p).2 = none ∧ (item.pollAssigned p).1.mark = item.mark) ∨
    ∃ snapshot, p.fetched = .ok snapshot ∧ snapshot.outcome = none ∧
      snapshot.closedWithoutMerge = false ∧
      item.pollAssigned p = ((item.feedback p snapshot).1, some (item.feedback p snapshot).2) := by
  unfold MonitoredPullRequest.pollAssigned
  split
  · exact Or.inl ⟨rfl, mark_settle _ _⟩
  split
  · exact Or.inl ⟨rfl, rfl⟩
  cases p.access with
  | error e => exact Or.inl ⟨rfl, rfl⟩
  | ok access =>
    cases access with
    | none => exact Or.inl ⟨rfl, rfl⟩
    | some repository =>
      dsimp only
      split
      · exact Or.inl ⟨rfl, rfl⟩
      cases hf : p.fetched with
      | error e => exact Or.inl ⟨rfl, rfl⟩
      | ok snapshot =>
        dsimp only
        cases ho : snapshot.outcome with
        | some outcome => exact Or.inl ⟨rfl, mark_settle _ _⟩
        | none =>
          dsimp only
          cases hc : snapshot.closedWithoutMerge with
          | true => exact Or.inl ⟨rfl, mark_settle _ _⟩
          | false => exact Or.inr ⟨snapshot, rfl, ho, hc, rfl⟩

/-- Everything a poll can do: it leaves the mark alone, or it looks at the activities of an open
pull request. -/
theorem poll_cases (item : MonitoredPullRequest) (p : Poll) :
    ((item.poll p).2 = none ∧ (item.poll p).1.mark = item.mark) ∨
    ∃ (item' : MonitoredPullRequest) (snapshot : ReviewSnapshot), item'.mark = item.mark ∧
      p.fetched = .ok snapshot ∧ snapshot.outcome = none ∧ snapshot.closedWithoutMerge = false ∧
      item.poll p = ((item'.feedback p snapshot).1, some (item'.feedback p snapshot).2) := by
  unfold MonitoredPullRequest.poll
  split
  · exact Or.inl ⟨rfl, rfl⟩
  split
  · exact Or.inl ⟨rfl, rfl⟩
  cases p.task with
  | none => exact Or.inl ⟨rfl, rfl⟩
  | some task =>
    dsimp only
    split
    · exact Or.inl ⟨rfl, rfl⟩
    cases task.2.filter fun a => !Text.isBlank a with
    | none => exact Or.inl ⟨rfl, rfl⟩
    | some agentId =>
      rcases pollAssigned_cases { item with agentId := agentId } p with h | h
      · exact Or.inl h
      · obtain ⟨snapshot, hf, ho, hc, heq⟩ := h
        exact Or.inr ⟨{ item with agentId := agentId }, snapshot, rfl, hf, ho, hc, heq⟩

/-- Everything the feedback can do, with the activity it found. -/
theorem feedback_cases (latest : Option ReviewActivity)
    (hlatest : item.latestNewActivity snapshot.activities = latest) :
    (item.feedback p snapshot).2.activities = snapshot.activities ∧
    (∀ f, (item.feedback p snapshot).2.followUp = some f → f.latest = latest) ∧
    ((item.feedback p snapshot).2.completed = false ∧
        (item.feedback p snapshot).1.mark = item.mark ∨
      (item.feedback p snapshot).2.completed = true ∧
        (item.feedback p snapshot).1.mark =
          (item.recordFeedback latest p.now).mark ∧
        (p.ending ≠ .taskFinished → latest.isSome = true →
          ∃ f, (item.feedback p snapshot).2.followUp = some f)) := by
  unfold MonitoredPullRequest.feedback
  rw [hlatest]
  dsimp only
  split
  · cases hp : p.ending with
    | committed => simp
    | taskFinished => simp
    | failed => simp
    | crashed => simp
  · rename_i hnot
    rw [Bool.or_eq_true, not_or, Option.not_isSome_iff_eq_none] at hnot
    rw [hnot.1]
    simp

theorem seen_append (item : MonitoredPullRequest) (looks : List Look) (e : Look) :
    (⟨item, looks ++ [e]⟩ : Watch).seen =
      (⟨item, looks⟩ : Watch).seen ++ if e.completed then e.activities else [] := by
  unfold Watch.seen
  rw [List.filter_append, List.flatMap_append]
  cases h : e.completed <;> simp [h]

theorem mem_seen {a : ReviewActivity} :
    a ∈ w.seen ↔ ∃ e ∈ w.looks, e.completed = true ∧ a ∈ e.activities := by
  simp [Watch.seen, and_assoc]

/-- Everything a step can do: it adds no look and leaves the mark alone, or it looks at the
activities of an open pull request. -/
theorem step_cases (w : Watch) (op : WatchOp) :
    ((w.step op).looks = w.looks ∧ (w.step op).item.mark = w.item.mark) ∨
    ∃ (p : Poll) (item' : MonitoredPullRequest) (snapshot : ReviewSnapshot), op = .poll p ∧
      item'.mark = w.item.mark ∧ p.fetched = .ok snapshot ∧ snapshot.outcome = none ∧
      snapshot.closedWithoutMerge = false ∧
      w.step op = ⟨(item'.feedback p snapshot).1, w.looks ++ [(item'.feedback p snapshot).2]⟩ := by
  cases op with
  | register agentId url now => exact Or.inl ⟨rfl, mark_register agentId url now⟩
  | poll p =>
    rcases poll_cases w.item p with ⟨hnone, hmark⟩ | hlook
    · exact Or.inl ⟨by simp [Watch.step, hnone], hmark⟩
    · obtain ⟨item', snapshot, hmark, hf, ho, hc, heq⟩ := hlook
      refine Or.inr ⟨p, item', snapshot, rfl, hmark, hf, ho, hc, ?_⟩
      rw [Watch.step, heq]
      rfl

/-- **The mark bounds what was seen**, whatever is polled. -/
theorem bounds_step (h : Bounds w.item w.seen) (op : WatchOp) :
    Bounds (w.step op).item (w.step op).seen := by
  rcases step_cases w op with ⟨hlooks, hmark⟩ | hlook
  · have hseen : (w.step op).seen = w.seen := by rw [Watch.seen, hlooks, Watch.seen]
    rw [hseen]
    exact h.congr hmark
  · obtain ⟨p, item', snapshot, rfl, hmark, -, -, -, hstep⟩ := hlook
    have h' : Bounds item' w.seen := h.congr hmark
    obtain ⟨hacts, -, hend⟩ := feedback_cases (p := p) _
      (rfl : item'.latestNewActivity snapshot.activities = _)
    rw [hstep, seen_append]
    rcases hend with ⟨hopen, hmark'⟩ | ⟨hdone, hmark', -⟩
    · rw [hopen, if_neg Bool.false_ne_true, List.append_nil]
      exact h'.congr hmark'
    · rw [if_pos hdone, hacts]
      cases hlatest : item'.latestNewActivity snapshot.activities with
      | none =>
        rw [hlatest, mark_recordFeedback_none] at hmark'
        exact (h'.append_of_none hlatest).congr hmark'
      | some m =>
        rw [hlatest, mark_recordFeedback_some] at hmark'
        exact h'.append_of_some hlatest hmark'

theorem noRepeat_step (hb : Bounds w.item w.seen) (h : w.NoRepeat) (op : WatchOp) :
    (w.step op).NoRepeat := by
  rcases step_cases w op with ⟨hlooks, -⟩ | hlook
  · unfold Watch.NoRepeat
    rwa [hlooks]
  · obtain ⟨p, item', snapshot, rfl, hmark, -, -, -, hstep⟩ := hlook
    obtain ⟨hacts, hlatest, -⟩ := feedback_cases (p := p) _
      (rfl : item'.latestNewActivity snapshot.activities = _)
    have hnew : ∀ f m, (item'.feedback p snapshot).2.followUp = some f → f.latest = some m →
        m ∈ snapshot.activities ∧ item'.isNew m = true := by
      intro f m hf hm
      rw [hlatest f hf] at hm
      exact List.mem_filter.1 (newest_spec hm).1
    rw [hstep]
    refine ⟨fun e he f m hf hm => ?_, List.pairwise_append.2 ⟨h.2, List.pairwise_singleton _ _, ?_⟩⟩
    · rcases List.mem_append.1 he with he | he
      · exact h.1 e he f m hf hm
      · rw [List.mem_singleton.1 he] at hf ⊢
        rw [hacts]
        exact (hnew f m hf hm).1
    · intro before hbefore e he hdone f m hf hm hmem
      rw [List.mem_singleton.1 he] at hf
      have hseen : m ∈ w.seen := mem_seen.2 ⟨before, hbefore, hdone, hmem⟩
      exact (hb.congr hmark).not_isNew hseen (hnew f m hf hm).2

theorem followed_step (hb : Bounds w.item w.seen) (h : w.Followed) {op : WatchOp}
    (hsep : w.Separated op) : (w.step op).Followed := by
  rcases step_cases w op with ⟨hlooks, hmark⟩ | hlook
  · have hstart : (w.step op).item.startedAt = w.item.startedAt := congrArg Prod.fst hmark
    unfold Watch.Followed
    rwa [hlooks, hstart]
  · obtain ⟨p, item', snapshot, rfl, hmark, hf, ho, hc, hstep⟩ := hlook
    obtain ⟨hending, hafter⟩ := hsep snapshot hf ho hc
    obtain ⟨hacts, hlatest, hend⟩ := feedback_cases (p := p) _
      (rfl : item'.latestNewActivity snapshot.activities = _)
    have hstart' : item'.startedAt = w.item.startedAt := congrArg Prod.fst hmark
    have hstart : (item'.feedback p snapshot).1.startedAt = w.item.startedAt := by
      rcases hend with ⟨-, hmark'⟩ | ⟨-, hmark', -⟩
      · exact (congrArg Prod.fst hmark').trans hstart'
      · exact (congrArg Prod.fst hmark').trans hstart'
    have hold : ∀ e ∈ w.looks, e.completed = true → ∀ a ∈ e.activities, w.item.startedAt < a.at_ →
        ∃ e' ∈ w.looks ++ [(item'.feedback p snapshot).2],
          e'.followUp.any (·.latest.isSome) = true ∧ a ∈ e'.activities := by
      intro e he hdone a ha hlt
      obtain ⟨e', he', hfollow⟩ := h e he hdone a ha hlt
      exact ⟨e', List.mem_append_left _ he', hfollow⟩
    rw [hstep]
    intro e he hdone a ha hlt
    dsimp only at he hlt ⊢
    rw [hstart] at hlt
    rcases List.mem_append.1 he with he | he
    · exact hold e he hdone a ha hlt
    · rw [List.mem_singleton.1 he, hacts] at ha
      rw [List.mem_singleton.1 he] at hdone
      by_cases hseen : a ∈ w.seen
      · obtain ⟨e₀, he₀, hdone₀, ha₀⟩ := mem_seen.1 hseen
        exact hold e₀ he₀ hdone₀ a ha₀ hlt
      · -- The poll sees something new, so it finds an activity beyond the mark.
        obtain ⟨a', ha', hlt', hall⟩ := hafter ⟨a, ha, hlt, hseen⟩
        have hnew : item'.isNew a' = true :=
          (hb.congr hmark).isNew_of_after (by rwa [hstart']) hall
        have hsome : (item'.latestNewActivity snapshot.activities).isSome = true := by
          rw [Option.isSome_iff_ne_none]
          intro hnone
          exact latestNewActivity_eq_none_iff.1 hnone a' ha' hnew
        rcases hend with ⟨hopen, -⟩ | ⟨-, -, hfollow⟩
        · rw [hdone] at hopen
          cases hopen
        · obtain ⟨f, hf'⟩ := hfollow hending hsome
          refine ⟨_, List.mem_append_right _ (List.mem_singleton_self _), ?_, ?_⟩
          · rw [hf', Option.any_some, hlatest f hf']
            exact hsome
          · rw [hacts]
            exact ha

end Steps

/-! ## Every run -/

/-- **Review feedback.**  From its registration on, over any polls and registrations of a pull
request: a follow-up reports an activity that no earlier completed poll has seen; and where every
poll that sees a new activity sees one that comes after all the old ones, every activity that a
completed poll sees is followed by a follow-up of a poll that saw it. -/
theorem feedback_followed (row : TaskPullRequest) (now : ℤ) (ops : List WatchOp) :
    (runOps Watch.step { item := registered row now } ops).NoRepeat ∧
    (Along Watch.step Watch.Separated { item := registered row now } ops →
      (runOps Watch.step { item := registered row now } ops).Followed) := by
  have hstart : Bounds (registered row now) (Watch.seen { item := registered row now }) :=
    Or.inl ⟨rfl, rfl, nofun⟩
  have hnone : Watch.NoRepeat { item := registered row now } := ⟨nofun, List.Pairwise.nil⟩
  have hfollowed : Watch.Followed { item := registered row now } := nofun
  constructor
  · exact (runOps_invariant (I := fun w : Watch => Bounds w.item w.seen ∧ w.NoRepeat)
      (fun w op h => ⟨bounds_step h.1 op, noRepeat_step h.1 h.2 op⟩) ⟨hstart, hnone⟩ ops).2
  · intro h
    exact (h.invariant (I := fun w : Watch => Bounds w.item w.seen ∧ w.Followed)
      (fun w op h hsep => ⟨bounds_step h.1 op, followed_step h.1 h.2 hsep⟩)
      ⟨hstart, hfollowed⟩).2

/-- A poll of an open pull request at which nothing goes wrong. -/
def openPoll (now : ℤ) (conversationComments reviewComments : List Value) : Poll where
  now := now
  task := some (.inProgress, some "atlas")
  configured := true
  access := .ok (some ("owner", "repo"))
  fetched := .ok (reviewSnapshotFromValues Char.isAlphanum
    { login := some "author", merged := false, state := some "open" } [] []
    conversationComments reviewComments 0)
  dispatchInFlight := false

/-- Two comments of one kind and one second, the second of which only the next poll sees. -/
theorem review_comments_followed :
    (runOps Watch.step
      { item := registered { key := ⟨"task", "owner", "repo", 1⟩, agentId := "atlas", url := "" } 0 }
      [.poll (openPoll (seconds 20) []
        [{ login := some "alice", timestamp := some (seconds 10), id := .number 5 }]),
      .poll (openPoll (seconds 40) []
        [{ login := some "alice", timestamp := some (seconds 10), id := .number 5 },
          { login := some "bob", timestamp := some (seconds 10), id := .number 6 }])]).Followed := by
  refine (feedback_followed _ 0 _).2 ⟨?_, ?_, trivial⟩
  · intro snapshot h _ _
    cases h
    exact ⟨by decide, fun _ => by decide +kernel⟩
  · intro snapshot h _ _
    cases h
    exact ⟨by decide, fun _ => by decide +kernel⟩

/-- A review comment is reported.  A conversation comment of the same second that only the next
poll sees comes before it in the order of the cursors, and nothing is enqueued for it. -/
theorem conversation_comment_missed :
    ¬ (runOps Watch.step
      { item := registered { key := ⟨"task", "owner", "repo", 1⟩, agentId := "atlas", url := "" } 0 }
      [.poll (openPoll (seconds 20) []
        [{ login := some "alice", timestamp := some (seconds 10), id := .number 5 }]),
      .poll (openPoll (seconds 40)
        [{ login := some "bob", timestamp := some (seconds 10), id := .number 6 }]
        [{ login := some "alice", timestamp := some (seconds 10), id := .number 5 }])]).Followed := by
  decide +kernel

end XpressClaw.Github
