import Mathlib.Data.Prod.Lex
import Mathlib.Data.String.Basic
import XpressClaw.Lib.Feed
import XpressClaw.Workflow.Engine
import XpressClaw.Workflow.Holes

/-!
# What a wait delivers, visit after visit

`waits.rs` polls the activity of a pull request and hands the first one behind the wait's
boundary to the engine; the next visit of the step starts behind it.  Instants are of any
linearly ordered type, since nothing but their order, their text and its reading matters.

* `pullRequestActivity_eq` — a poll takes the least activity that the boundary lets through.
* `previous_after_wait` — the next visit finds the payload of the wait before it.
* `waits_deliver_in_order` — visits one after the other deliver every activity at or behind
  the first boundary once, by time and cursor.
-/

namespace XpressClaw

open Lib

/-! ## Polling -/

/-- `parse_timestamp` and `DateTime::to_rfc3339`. -/
structure Clock (T : Type) where
  parse : String → Option T
  toRfc3339 : T → String

/-- A candidate of `pull_request_activity`: its time, its cursor and its payload. -/
structure Activity (T : Type) where
  time : T
  cursor : String
  payload : Json

/-- What the pages of the API hold for a pull request: `pulls/{n}/reviews`,
`issues/{n}/comments` and `pulls/{n}/comments`. -/
structure PullRequestPages where
  reviews : List Json
  conversationComments : List Json
  reviewComments : List Json

section Poll

variable {T : Type} [LinearOrder T] (env : Env) (clock : Clock T)

/-- `activity_cursor`. -/
def activityCursor (kind : String) (item : Json) : String :=
  activityCursorFromParts env kind ((item.get? "id").getD .null)

/-- The payload of an activity, which the engine stores as the output of the wait; its fields
stand in the order of `Json.ofFields`. -/
def activityPayload (kind : String) (item : Json) (time : T) (cursor : String) : Json :=
  .obj [
    ("author", ((item.get? "user").bind (Json.get? "login")).getD .null),
    ("body", (item.get? "body").getD .null),
    ("created_at", .str (clock.toRfc3339 time)),
    ("cursor", .str cursor),
    ("id", (item.get? "id").getD .null),
    ("kind", .str kind),
    ("state", (item.get? "state").getD .null),
    ("url", (item.get? "html_url").getD .null)]

/-- `push_activity`. -/
def pushActivity (timestampField kind : String) (since : T) (afterCursor : Option String)
    (candidates : List (Activity T)) (item : Json) : List (Activity T) :=
  match ((item.get? timestampField).bind Json.asStr).bind clock.parse with
  | none => candidates
  | some timestamp =>
      let cursor := activityCursor env kind item
      if timestamp < since ∨ (timestamp = since ∧ afterCursor.any (cursor ≤ ·)) then candidates
      else candidates ++ [⟨timestamp, cursor, activityPayload clock kind item timestamp cursor⟩]

/-- Whether reviews count for the event. -/
def wantsReviews (event : String) : Bool :=
  event = "github.pull_request.review" || event = "github.pull_request.activity"

/-- Whether comments count for the event. -/
def wantsComments (event : String) : Bool :=
  event = "github.pull_request.comment" || event = "github.pull_request.activity"

/-- The order of the candidates: by time, and by cursor at the same time. -/
def Activity.key (a : Activity T) : T ×ₗ String := toLex (a.time, a.cursor)

/-- `pull_request_activity`: the payload of the first candidate. -/
def pullRequestActivity (pages : PullRequestPages) (event : String) (since : T)
    (afterCursor : Option String) : Option Json :=
  let candidates :=
    if wantsReviews event then
      pages.reviews.foldl (pushActivity env clock "submitted_at" "review" since afterCursor) []
    else []
  let candidates :=
    if wantsComments event then
      let candidates := pages.conversationComments.foldl
        (pushActivity env clock "created_at" "conversation_comment" since afterCursor) candidates
      pages.reviewComments.foldl
        (pushActivity env clock "created_at" "review_comment" since afterCursor) candidates
    else candidates
  (Feed.inOrder Activity.key candidates).head?.map Activity.payload

/-! ## Visits -/

/-- The boundary of a visit in `execute_wait_step`: from the previous event of the step, if
there is one, else from `initial_wait_boundary`. -/
def visitBoundary (initial : T) (previous : Option Json) : T × Option String :=
  ((((previous.bind (Json.get? "created_at")).bind Json.asStr).bind clock.parse).getD initial,
    waitCursor env previous)

/-- A poll of a wait whose state is stored with the time of its boundary as a text. -/
def pollWait (pages : PullRequestPages) (event startedAt : String)
    (afterCursor : Option String) : Option Json :=
  (clock.parse startedAt).bind fun since => pullRequestActivity env clock pages event since
    afterCursor

/-- What a resumed wait leaves for the next visit: the payload is stored as a text
(`resume_wait_execution`) and read back (`finish_wait_execution`). -/
def handedOver (payload : Json) : Option Json :=
  some ((env.parseJson (env.renderJson payload)).getD .null) |>.filter Json.isObject

/-- Visits of one wait step, one after the other, with what they deliver; a wait that finds
nothing stays pending.  `initial` is the boundary that a visit without a previous event
starts from. -/
def visits (pages : PullRequestPages) (event : String) (initial : ℕ → T) :
    ℕ → ℕ → Option Json → List Json
  | 0, _, _ => []
  | n + 1, visit, previous =>
      let boundary := visitBoundary env clock (initial visit) previous
      match pollWait env clock pages event (clock.toRfc3339 boundary.1) boundary.2 with
      | none => []
      | some payload =>
          payload :: visits pages event initial n (visit + 1) (handedOver env payload)

/-! ## What matches -/

/-- The activity that an item of a page stands for, if its time can be read. -/
def activity (timestampField kind : String) (item : Json) : Option (Activity T) :=
  (((item.get? timestampField).bind Json.asStr).bind clock.parse).map fun timestamp =>
    let cursor := activityCursor env kind item
    ⟨timestamp, cursor, activityPayload clock kind item timestamp cursor⟩

/-- The activities of a pull request that match an event. -/
def matchingActivities (pages : PullRequestPages) (event : String) : List (Activity T) :=
  (if wantsReviews event then
    pages.reviews.filterMap (activity env clock "submitted_at" "review") else []) ++
  (if wantsComments event then
    pages.conversationComments.filterMap (activity env clock "created_at" "conversation_comment") ++
      pages.reviewComments.filterMap (activity env clock "created_at" "review_comment") else [])

/-- The activity is not before the boundary: not earlier, and at the same time not at or
before the cursor, if there is one. -/
def Activity.Passes (boundary : T × Option String) (a : Activity T) : Prop :=
  boundary.1 ≤ a.time ∧ (a.time = boundary.1 → ∀ cursor ∈ boundary.2, cursor < a.cursor)

instance (boundary : T × Option String) : DecidablePred (Activity.Passes boundary) := fun a =>
  inferInstanceAs (Decidable (_ ∧ (_ → ∀ cursor ∈ boundary.2, cursor < a.cursor)))

end Poll

section Results

variable {T : Type} [LinearOrder T] {env : Env} {clock : Clock T}

/-- What is pushed is what passes the boundary. -/
theorem foldl_pushActivity (field kind : String) (since : T) (after : Option String)
    (items : List Json) (candidates : List (Activity T)) :
    items.foldl (pushActivity env clock field kind since after) candidates =
      candidates ++ (items.filterMap (activity env clock field kind)).filter
        fun a => a.Passes (since, after) := by
  induction items generalizing candidates with
  | nil => simp
  | cons item items ih =>
    rw [List.foldl_cons, ih, pushActivity]
    cases hread : ((item.get? field).bind Json.asStr).bind clock.parse with
    | none =>
      have hnone : activity env clock field kind item = none := by simp [activity, hread]
      simp [hnone]
    | some time =>
      have hsome : activity env clock field kind item = some ⟨time,
          activityCursor env kind item,
          activityPayload clock kind item time (activityCursor env kind item)⟩ := by
        simp [activity, hread]
      have hpasses : (time < since ∨ (time = since ∧
          after.any (activityCursor env kind item ≤ ·) = true)) ↔
          ¬ Activity.Passes (since, after) ⟨time, activityCursor env kind item,
            activityPayload clock kind item time (activityCursor env kind item)⟩ := by
        rw [Activity.Passes, not_and_or, not_le]
        cases after with
        | none => simp
        | some cursor =>
          simp only [Option.any_some, decide_eq_true_eq, Option.mem_some_iff, forall_eq',
            Classical.not_imp, not_lt]
      by_cases hpass : Activity.Passes (since, after) ⟨time, activityCursor env kind item,
          activityPayload clock kind item time (activityCursor env kind item)⟩
      · simp [hsome, hpass, mt hpasses.1 (not_not.2 hpass)]
      · simp [hsome, hpass, hpasses.2 hpass]

/-- **A poll takes the least activity behind the boundary.** -/
theorem pullRequestActivity_eq (pages : PullRequestPages) (event : String) (since : T)
    (after : Option String) : pullRequestActivity env clock pages event since after =
      (Feed.inOrder Activity.key ((matchingActivities env clock pages event).filter
        fun a => a.Passes (since, after))).head?.map Activity.payload := by
  rw [pullRequestActivity, matchingActivities]
  cases wantsReviews event <;> cases wantsComments event <;> simp [foldl_pushActivity]

/-! ## Handing over the boundary -/

omit [LinearOrder T] in
theorem visitBoundary_payload (initial : T) (kind : String) (item : Json) (time : T)
    (cursor : String) (h : clock.parse (clock.toRfc3339 time) = some time) :
    visitBoundary env clock initial (some (activityPayload clock kind item time cursor)) =
      (time, some cursor) := by
  have hcreated : (activityPayload clock kind item time cursor).get? "created_at" =
      some (.str (clock.toRfc3339 time)) := rfl
  have hcursor : (activityPayload clock kind item time cursor).get? "cursor" =
      some (.str cursor) := rfl
  simp [visitBoundary, waitCursor, hcreated, hcursor, Json.asStr, h]

omit [LinearOrder T] in
/-- An activity that matches comes from an item of a page. -/
theorem exists_item {pages : PullRequestPages} {event : String} {a : Activity T}
    (h : a ∈ matchingActivities env clock pages event) : ∃ kind item,
      a.payload = activityPayload clock kind item a.time a.cursor := by
  have hitem (field kind : String) (items : List Json)
      (hmem : a ∈ items.filterMap (activity env clock field kind)) :
      ∃ kind item, a.payload = activityPayload clock kind item a.time a.cursor := by
    obtain ⟨item, -, ha⟩ := List.mem_filterMap.1 hmem
    obtain ⟨time, -, rfl⟩ := Option.map_eq_some_iff.1 ha
    exact ⟨kind, item, rfl⟩
  rw [matchingActivities, List.mem_append] at h
  rcases h with h | h
  · split at h
    next => exact hitem _ _ _ h
    next => cases h
  · split at h
    next =>
      rcases List.mem_append.1 h with h | h
      · exact hitem _ _ _ h
      · exact hitem _ _ _ h
    next => cases h

theorem passes_handedOver (a b : Activity T) :
    Activity.Passes (a.time, some a.cursor) b ↔ a.key < b.key := by
  rw [Activity.Passes, Activity.key, Activity.key, Prod.Lex.toLex_lt_toLex]
  simp only [Option.mem_some_iff, forall_eq']
  constructor
  · rintro ⟨hle, htie⟩
    rcases hle.lt_or_eq with hlt | heq
    · exact .inl hlt
    · exact .inr ⟨heq, htie heq.symm⟩
  · rintro (hlt | ⟨heq, hcursor⟩)
    · exact ⟨hlt.le, fun heq => absurd heq.symm hlt.ne⟩
    · exact ⟨heq.le, fun _ => hcursor⟩

theorem upward_passes (boundary : T × Option String) :
    Feed.Upward Activity.key fun a => decide (Activity.Passes boundary a) := by
  intro a b ha hab
  rw [decide_eq_true_eq] at ha ⊢
  rw [Activity.key, Activity.key, Prod.Lex.toLex_lt_toLex] at hab
  rcases hab with hlt | ⟨heq, hcursor⟩
  · exact ⟨ha.1.trans hlt.le, fun heq => absurd (heq ▸ hlt) ha.1.not_gt⟩
  · refine ⟨ha.1.trans heq.le, fun htie cursor hmem => ?_⟩
    exact (ha.2 (heq.trans htie) cursor hmem).trans hcursor

/-- The texts that the visits go through are read back as what they were written for: the
times of the activities and of the first boundary, and the payloads. -/
structure ReadBack (env : Env) (clock : Clock T) (activities : List (Activity T)) (since : T) :
    Prop where
  times : ∀ a ∈ activities, clock.parse (clock.toRfc3339 a.time) = some a.time
  since : clock.parse (clock.toRfc3339 since) = some since
  payloads : ∀ a ∈ activities, env.parseJson (env.renderJson a.payload) = some a.payload

variable {pages : PullRequestPages} {event : String} {initial : ℕ → T} {previous : Option Json}

/-- The visits go through the activities as a reader of the feed does. -/
theorem visits_eq_drain {visit : ℕ} (n : ℕ)
    (hread : ReadBack env clock (matchingActivities env clock pages event)
      (visitBoundary env clock (initial visit) previous).1) :
    visits env clock pages event initial n visit previous =
      (Feed.drain Activity.key (matchingActivities env clock pages event) n fun a =>
        decide (a.Passes (visitBoundary env clock (initial visit) previous))).map
          Activity.payload := by
  induction n generalizing visit previous with
  | zero => rfl
  | succ n ih =>
    rw [visits, Feed.drain, pollWait, hread.since, Option.bind_some, pullRequestActivity_eq]
    cases hhead : (Feed.inOrder Activity.key ((matchingActivities env clock pages event).filter
        fun a => decide (a.Passes (visitBoundary env clock (initial visit) previous)))).head? with
    | none => rfl
    | some a =>
      have hmem : a ∈ matchingActivities env clock pages event :=
        (List.mem_filter.1 ((Feed.inOrder_perm _).subset
          (List.mem_of_mem_head? hhead))).1
      obtain ⟨kind, item, hpayload⟩ := exists_item hmem
      have hover : handedOver env a.payload = some a.payload := by
        rw [handedOver, hread.payloads a hmem, hpayload]
        rfl
      have hnext : visitBoundary env clock (initial (visit + 1)) (some a.payload) =
          (a.time, some a.cursor) := by
        rw [hpayload]
        exact visitBoundary_payload _ _ _ _ _ (hread.times a hmem)
      have hrest := @ih (some a.payload) (visit + 1)
        ⟨hread.times, by rw [hnext]; exact hread.times a hmem, hread.payloads⟩
      simp only [Option.map_some, List.map_cons, hover, hrest, hnext, passes_handedOver]

/-- **Waits deliver completely and in order.**  With distinct cursors, visits of a wait step
one after the other, each from the boundary that the result before it hands over, deliver
the payloads of all matching activities at or behind the first boundary, each once, by time
and by cursor at the same time. -/
theorem waits_deliver_in_order (env : Env) (clock : Clock T) (pages : PullRequestPages)
    (event : String) (initial : ℕ → T) (previous : Option Json)
    (hcursors : ((matchingActivities env clock pages event).map Activity.cursor).Nodup)
    (hread : ReadBack env clock (matchingActivities env clock pages event)
      (visitBoundary env clock (initial 0) previous).1) :
    ∃ due : List (Activity T),
      due.Perm ((matchingActivities env clock pages event).filter fun a =>
        a.Passes (visitBoundary env clock (initial 0) previous)) ∧
      due.Pairwise (fun a b => a.time < b.time ∨ a.time = b.time ∧ a.cursor < b.cursor) ∧
      ∀ n, visits env clock pages event initial n 0 previous =
        (due.take n).map Activity.payload := by
  have hkeys : ((matchingActivities env clock pages event).map Activity.key).Nodup := by
    apply List.Nodup.of_map (fun k => (ofLex k).2)
    simpa [Activity.key, Function.comp_def] using hcursors
  refine ⟨Feed.inOrder Activity.key _, Feed.inOrder_perm _, ?_, fun n => ?_⟩
  · apply (Feed.inOrder_filter_strict hkeys _).imp
    intro a b hab
    rwa [Activity.key, Activity.key, Prod.Lex.toLex_lt_toLex] at hab
  · rw [visits_eq_drain n hread, Feed.drain_eq hkeys n (upward_passes _)]

/-! ## The engine's side -/

omit [LinearOrder T] in
theorem waitBoundary_previous (inst : ℕ) {previous : Json} {text : String} {time : ℤ}
    (htext : (previous.get? "created_at").bind Json.asStr = some text)
    (htime : env.parseRfc3339 text = some time) :
    waitBoundary env inst (some previous) = pure time := by
  simp [waitBoundary, htext, htime]

omit [LinearOrder T] in
/-- The next visit of a wait step finds the payload that the wait before it stored under the
id of the step. -/
theorem previous_after_wait (trigger : Json) (globals : Vars) {stored : Vars}
    (hstored : stored.Sorted) (stepId : String) (payload : Json) :
    (Context.buildContext trigger globals (Vars.insert stored stepId payload)).get? stepId =
      some payload := by
  show Vars.get? (Vars.extend _ _) stepId = _
  rw [Vars.get?_extend_of_nodup (hstored.insert stepId payload).nodup, Vars.get?_insert,
    if_pos rfl, Option.some_or]

end Results

/-! ## Two activities of one second -/

/-- The seconds of a minute, as the API and as the code write two of them. -/
def minuteClock : Clock ℕ where
  parse := fun text =>
    if text = "2026-08-02T12:00:00+00:00" then some 0
    else if text = "2026-08-02T12:00:01Z" ∨ text = "2026-08-02T12:00:01+00:00" then some 1
    else none
  toRfc3339 := fun second =>
    if second = 0 then "2026-08-02T12:00:00+00:00" else "2026-08-02T12:00:01+00:00"

/-- A review and a comment that were written in the same second. -/
def reviewedPages : PullRequestPages where
  reviews := [.obj [("id", .num 2), ("submitted_at", .str "2026-08-02T12:00:01Z")]]
  conversationComments := []
  reviewComments := [.obj [("created_at", .str "2026-08-02T12:00:01Z"), ("id", .num 1)]]

/-- The payload of the review, of which nothing but its id and its time is known. -/
def reviewText : String := "\x7b\"author\":null,\"body\":null,\"created_at\":\"2026-08-02T12:00:01+00:00\",\"cursor\":\"review:00000000000000000002\",\"id\":2,\"kind\":\"review\",\"state\":null,\"url\":null\x7d"

/-- The payload of the comment. -/
def commentText : String := "\x7b\"author\":null,\"body\":null,\"created_at\":\"2026-08-02T12:00:01+00:00\",\"cursor\":\"review_comment:00000000000000000001\",\"id\":1,\"kind\":\"review_comment\",\"state\":null,\"url\":null\x7d"

/-- A reader and a writer of these two payloads. -/
def payloadEnv : Env :=
  { Context.textEnv with
    parseJson := fun text =>
      if text = reviewText then some (activityPayload minuteClock "review"
        (.obj [("id", .num 2)]) 1 "review:00000000000000000002")
      else if text = commentText then some (activityPayload minuteClock "review_comment"
        (.obj [("id", .num 1)]) 1 "review_comment:00000000000000000001")
      else none
    renderJson := fun v =>
      if v.get? "kind" = some (.str "review") then reviewText else commentText }

/-- Both are delivered, whatever the order of their cursors. -/
theorem reviewed_in_order : ∃ due : List (Activity ℕ),
    due.Perm ((matchingActivities payloadEnv minuteClock reviewedPages
      "github.pull_request.activity").filter fun a =>
        a.Passes (visitBoundary payloadEnv minuteClock 0 none)) ∧
    due.Pairwise (fun a b => a.time < b.time ∨ a.time = b.time ∧ a.cursor < b.cursor) ∧
    ∀ n, visits payloadEnv minuteClock reviewedPages "github.pull_request.activity"
      (fun _ => 0) n 0 none = (due.take n).map Activity.payload :=
  waits_deliver_in_order payloadEnv minuteClock reviewedPages "github.pull_request.activity"
    (fun _ => 0) none (by decide +kernel)
    ⟨by decide +kernel, by decide +kernel, by decide +kernel⟩

end XpressClaw
