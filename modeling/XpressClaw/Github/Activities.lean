import Mathlib.Data.List.Sort
import Mathlib.Data.Prod.Lex
import Mathlib.Data.String.Basic
import XpressClaw.Github.Review
import XpressClaw.Lib.Text

/-!
# What a poll sees of a pull request

The values that GitHub returns, after their fields are read, and the snapshot that
`review_snapshot_from_values` makes of them.  An instant is a number of nanoseconds.

* `pushActivity` — a review or a comment of somebody else becomes an activity.
* `ReviewActivity.key` — activities are ordered by their time, and within one instant by a cursor
  that begins with their kind.
* `newest` — the last of the greatest activities.
-/

namespace XpressClaw.Github

open Lib

/-! ## Activities -/

structure ReviewActivity where
  at_ : ℤ
  cursor : String
  kind : String
  author : String
  body : String
  url : Option String
  state : Option String
  deriving DecidableEq

/-- The order of the activities: by time, then by cursor. -/
def ReviewActivity.key (a : ReviewActivity) : ℤ ×ₗ String := toLex (a.at_, a.cursor)

structure ReviewSnapshot where
  outcome : Option ReviewOutcome
  closedWithoutMerge : Bool
  activities : List ReviewActivity
  unresolvedThreads : ℕ
  deriving DecidableEq

/-! ## Values -/

/-- The `id` of a value. -/
inductive ValueId where
  /-- A number that is a `u64`. -/
  | number (n : ℕ)
  /-- A text, or the text of another value. -/
  | text (s : String)
  | missing
  deriving DecidableEq

/-- A review or a comment; `timestamp` is its `submitted_at` or `updated_at`, where that is a
time. -/
structure Value where
  login : Option String
  timestamp : Option ℤ
  id : ValueId := .missing
  body : Option String := none
  htmlUrl : Option String := none
  state : Option String := none
  deriving DecidableEq

structure Reaction where
  content : Option String
  login : Option String
  deriving DecidableEq

structure PullRequestValue where
  login : Option String
  /-- `merged_at` is there and not null. -/
  merged : Bool
  state : Option String
  deriving DecidableEq

/-- `format!("{number:020}")`. -/
def padded (n : ℕ) : String :=
  let digits := Nat.toDigits 10 n
  String.ofList (List.replicate (20 - digits.length) '0' ++ digits)

def ValueId.render : ValueId → String
  | .number n => padded n
  | .text s => s
  | .missing => "unknown"

/-- `kind.replace(' ', '_')`. -/
def underscored (kind : String) : String :=
  String.ofList (kind.toList.map fun c => if c = ' ' then '_' else c)

/-- The activity of a value, if it has a time and is of somebody else. -/
def activityOf (value : Value) (kind pullRequestAuthor : String) : Option ReviewActivity :=
  let author := value.login.getD ""
  if author = "" ∨ Text.asciiLower author = Text.asciiLower pullRequestAuthor then none
  else
    value.timestamp.map fun at_ =>
      { at_
        cursor := underscored kind ++ ":" ++ value.id.render
        kind
        author
        body := value.body.getD ""
        url := value.htmlUrl
        state := value.state }

def pushActivity (activities : List ReviewActivity) (value : Value)
    (kind pullRequestAuthor : String) : List ReviewActivity :=
  activities ++ (activityOf value kind pullRequestAuthor).toList

/-! ## The snapshot -/

section Snapshot

/- `char::is_alphanumeric`. -/
variable (isAlphanumeric : Char → Bool)

def isApprovalText (body : String) : Bool :=
  let trimmed := Text.trim body
  if trimmed ∈ ["+1", ":+1:", "👍", "👍🏻", "👍🏼", "👍🏽", "👍🏾", "👍🏿"] then true
  else
    let inner := (trimmed.toList.dropWhile fun c => !isAlphanumeric c).reverse
    let inner := (inner.dropWhile fun c => !isAlphanumeric c).reverse
    Text.asciiLower (String.ofList inner) ∈ ["lgtm", "approved"]

/-- The latest review of one author. -/
structure LatestReview where
  reviewer : String
  state : String
  submitted : ℤ
  body : String
  deriving DecidableEq

/-- `latest_review_by_author`. -/
def latestReviews (reviews : List Value) : List LatestReview :=
  reviews.foldl (fun latest review =>
    let reviewer := review.login.getD ""
    match review.state, review.timestamp with
    | some state, some submitted =>
        if reviewer = "" then latest
        else
          let row : LatestReview :=
            { reviewer := Text.asciiLower reviewer, state, submitted, body := review.body.getD "" }
          Table.upsert (·.reviewer) row.reviewer row
            (fun previous => if previous.submitted ≤ submitted then row else previous) latest
    | _, _ => latest) []

def pushAll (activities : List ReviewActivity) (values : List Value)
    (kind pullRequestAuthor : String) : List ReviewActivity :=
  values.foldl (fun activities value => pushActivity activities value kind pullRequestAuthor)
    activities

/-- The activities of the three kinds, in the order in which they are read. -/
def readActivities (author : String) (reviews conversationComments reviewComments : List Value) :
    List ReviewActivity :=
  let activities := pushAll [] reviews "review" author
  let activities := pushAll activities conversationComments "conversation comment" author
  pushAll activities reviewComments "review comment" author

def reviewSnapshotFromValues (pullRequest : PullRequestValue) (reactions : List Reaction)
    (reviews conversationComments reviewComments : List Value) (unresolvedThreads : ℕ) :
    ReviewSnapshot :=
  let author := Text.asciiLower (pullRequest.login.getD "")
  let thumbsUp := reactions.any fun reaction =>
    reaction.content = some "+1" &&
      reaction.login.any fun reactor => reactor ≠ "" && Text.asciiLower reactor ≠ author
  let activities := readActivities author reviews conversationComments reviewComments
  let latestReviewApproval := (latestReviews reviews).any fun review =>
    review.reviewer ≠ author &&
      (Text.asciiLower review.state = "approved" ||
        (Text.asciiLower review.state = "commented" && isApprovalText isAlphanumeric review.body))
  let approvalComment := activities.any fun activity =>
    activity.kind ≠ "review" && isApprovalText isAlphanumeric activity.body
  { outcome :=
      if pullRequest.merged then some .merged
      else if thumbsUp || latestReviewApproval || approvalComment then some .approved
      else none
    closedWithoutMerge := pullRequest.state = some "closed" && !pullRequest.merged
    activities := activities.insertionSort fun left right => left.key ≤ right.key
    unresolvedThreads }

end Snapshot

/-! ## The newest activity -/

/-- `max_by`: the last of the greatest. -/
def newest : List ReviewActivity → Option ReviewActivity
  | [] => none
  | a :: activities =>
      match newest activities with
      | none => some a
      | some b => if b.key < a.key then some a else some b

theorem newest_eq_none_iff {activities : List ReviewActivity} :
    newest activities = none ↔ activities = [] := by
  cases activities with
  | nil => simp [newest]
  | cons a activities =>
    rw [newest]
    cases newest activities with
    | none => simp
    | some b =>
      dsimp only
      split <;> simp

theorem newest_spec {activities : List ReviewActivity} {m : ReviewActivity}
    (h : newest activities = some m) : m ∈ activities ∧ ∀ a ∈ activities, a.key ≤ m.key := by
  induction activities generalizing m with
  | nil => cases h
  | cons a activities ih =>
    rw [newest] at h
    cases hb : newest activities with
    | none =>
      rw [hb] at h
      cases h
      rw [newest_eq_none_iff.1 hb]
      simp
    | some b =>
      rw [hb] at h
      obtain ⟨hmem, hle⟩ := ih hb
      dsimp only at h
      split at h
      · rename_i hlt
        cases h
        refine ⟨List.mem_cons_self, fun c hc => ?_⟩
        rcases List.mem_cons.1 hc with rfl | hc
        · exact le_refl _
        · exact (hle c hc).trans hlt.le
      · rename_i hnot
        cases h
        refine ⟨List.mem_cons_of_mem _ hmem, fun c hc => ?_⟩
        rcases List.mem_cons.1 hc with rfl | hc
        · exact not_lt.1 hnot
        · exact hle c hc

end XpressClaw.Github
