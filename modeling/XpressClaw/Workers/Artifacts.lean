import XpressClaw.Lib.Markers
import XpressClaw.Lib.Text
import XpressClaw.Workflow.Json

/-!
# Files referenced by a final message

`prepare_message_artifacts`: the scan for references, with the byte offsets of the source.  What
`serde_json` makes of a payload and what capturing a file gives are parameters.

* `prepareMessageArtifacts` — gives nothing where the source would cut inside a character or go on
  for ever.
* `Item` — a stretch between markers, and what became of it; `shown` is the text that is left.
* `Explained` — which stretches are references, and what each of them leads to.
* `Reached`, `reached_loop` — what the scan has done when it is at an offset.
* `references_resolved` — the whole of a message, and exactly which references are resolved.
-/

namespace XpressClaw.Workers.Artifacts

open Lib Utf8

/-! ## The source -/

def maxPublishedFileBytes : ℕ := 20 * 1024 * 1024

def maxPublishedFilesPerMessage : ℕ := 8

/-- `REFERENCE_START`. -/
def referenceStart : List Char := '\ue200' :: ("xpressclaw-file".toList ++ ['\ue202'])

/-- `REFERENCE_END`. -/
def referenceEnd : Char := '\ue201'

structure PublishedFileAttachment where
  name : String
  mimeType : String
  data : List UInt8
  deriving DecidableEq

structure PreparedMessageArtifacts where
  content : List Char
  attachments : List PublishedFileAttachment
  deriving DecidableEq

structure FileReference where
  path : String
  title : Option String
  deriving DecidableEq

inductive CaptureError where
  | outsidePermittedRoots
  | missing
  | unreadable
  | unsupported
  | oversize
  | malformed
  deriving DecidableEq

def CaptureError.message : CaptureError → String
  | .outsidePermittedRoots => "the file is outside this Agent's writable workspace"
  | .missing => "the file no longer exists"
  | .unreadable => "the file could not be read"
  | .unsupported => "only PPTX, DOCX, XLSX, and PDF artifacts can be published"
  | .oversize => "the file exceeds the 20 MiB publication limit"
  | .malformed => "the file does not match its declared artifact format"

/-- `parse_reference`; `fromStr` is `serde_json::from_str`. -/
def parseReference (fromStr : List Char → Option Json) (raw : List Char) :
    Option FileReference := do
  let payload ← fromStr raw
  let _ ← payload.asObject
  let path := Text.trim (← (← payload.get? "path").asStr)
  if path = "" ∨ 4096 < path.utf8ByteSize ∨ path.toList.any Text.isControl then none
  else
    match payload.get? "title" with
    | none => some { path, title := none }
    | some (.str title) =>
        let title := Text.trim title
        if title = "" then some { path, title := none }
        else if 250 < title.length ∨ title.toList.any Text.isControl then none
        else some { path, title := some title }
    | some _ => none

/-- `Path::file_stem` of a POSIX path. -/
def fileStem (path : String) : Option String :=
  match ((Text.splitChar '/' path).filter fun c => c ≠ "" ∧ c ≠ ".").getLast? with
  | none => none
  | some name =>
      if name = ".." then none
      else
        let stem := (name.toList.reverse.dropWhile (· ≠ '.')).drop 1
        some (if stem = [] then name else String.ofList stem.reverse)

def displayTitle (reference : FileReference) : String :=
  reference.title.getD
    (let name := ((fileStem reference.path).map Text.trim).filter (· ≠ "")
    String.ofList ((name.getD "Presentation").toList.take 250))

/-- `str::replace` of a character. -/
def replaceChar (c : Char) (new : List Char) (cs : List Char) : List Char :=
  cs.flatMap fun d => if d = c then new else [d]

def escapeMarkdown (value : String) : List Char :=
  replaceChar '`' ['\\', '`'] (replaceChar '_' ['\\', '_']
    (replaceChar '*' ['\\', '*'] (replaceChar '\\' ['\\', '\\'] value.toList)))

def unavailable (reference : FileReference) (why : String) : List Char :=
  "\n\n> Artifact unavailable: **".toList ++ escapeMarkdown (displayTitle reference) ++
    "** — ".toList ++ why.toList ++ ".\n\n".toList

/-- The state of the scan. -/
structure Scan where
  rendered : List Char := []
  attachments : List PublishedFileAttachment := []
  capturedPaths : List String := []
  capturedBytes : ℕ := 0
  cursor : ℕ := 0
  textStart : ℕ := 0

/-- A reference whose text has been removed. -/
def Scan.publish (capture : FileReference → Except CaptureError PublishedFileAttachment)
    (s : Scan) (reference : FileReference) : Scan :=
  if reference.path ∈ s.capturedPaths then s
  else
    let s := { s with capturedPaths := reference.path :: s.capturedPaths }
    if maxPublishedFilesPerMessage ≤ s.attachments.length then
      { s with
        rendered := s.rendered ++
          unavailable reference "a message can publish at most eight files" }
    else
      match capture reference with
      | .ok attachment =>
          if s.capturedBytes + attachment.data.length ≤ maxPublishedFileBytes then
            { s with
              capturedBytes := s.capturedBytes + attachment.data.length
              attachments := s.attachments ++ [attachment] }
          else
            { s with
              rendered := s.rendered ++ unavailable reference
                "the published files exceed the combined 20 MiB message limit" }
      | .error error =>
          { s with rendered := s.rendered ++ unavailable reference error.message }

/-- Whether a text ends in an odd number of backslashes. -/
def escaped (front : List Char) : Bool :=
  (front.reverse.takeWhile (· = '\\')).length % 2 = 1

def isBackslashEscaped (content : List Char) (index : ℕ) : Option Bool :=
  (sliceTo content index).map escaped

section Scanner

variable (fromStr : List Char → Option Json)
  (capture : FileReference → Except CaptureError PublishedFileAttachment) (content : List Char)

/-- One round of the loop, and whether it goes on. -/
def Scan.round (s : Scan) : Option (Scan × Bool) :=
  if ¬ s.cursor < byteLen content then some (s, false)
  else do
    match find referenceStart (← sliceFrom content s.cursor) with
    | none => some (s, false)
    | some relativeStart =>
        let start := s.cursor + relativeStart
        let payloadStart := start + byteLen referenceStart
        match find [referenceEnd] (← sliceFrom content payloadStart) with
        | none => some (s, false)
        | some relativeEnd =>
            let stop := payloadStart + relativeEnd
            let s := { s with cursor := stop + byteLen [referenceEnd] }
            if ← isBackslashEscaped content start then some (s, true)
            else
              match parseReference fromStr (← slice content payloadStart stop) with
              | none => some (s, true)
              | some reference =>
                  let text ← slice content s.textStart start
                  let s := { s with rendered := s.rendered ++ text }
                  some ({ s.publish capture reference with textStart := s.cursor }, true)

/-- The loop, for as many rounds as there is fuel. -/
def Scan.loop : ℕ → Scan → Option Scan
  | 0, _ => none
  | fuel + 1, s =>
      match s.round fromStr capture content with
      | none => none
      | some (s, false) => some s
      | some (s, true) => Scan.loop fuel s

def prepareMessageArtifacts : Option PreparedMessageArtifacts := do
  let s ← Scan.loop fromStr capture content (byteLen content + 1) {}
  some { content := s.rendered ++ (← sliceFrom content s.textStart), attachments := s.attachments }

end Scanner

/-! ## Stretches -/

/-- What a reference leads to. -/
inductive Outcome where
  /-- The path has been referenced before, and nothing is put in its place. -/
  | repeated
  | attached (attachment : PublishedFileAttachment)
  | unavailable (why : String)
  deriving DecidableEq

namespace Outcome

def text (reference : FileReference) : Outcome → List Char
  | .unavailable why => Artifacts.unavailable reference why
  | .repeated | .attached _ => []

def attachment : Outcome → Option PublishedFileAttachment
  | .attached a => some a
  | .repeated | .unavailable _ => none

end Outcome

structure Resolved where
  reference : FileReference
  outcome : Outcome
  deriving DecidableEq

/-- A stretch between markers; one that is not resolved stays as it is. -/
structure Item extends Markers.Pair where
  resolved : Option Resolved
  deriving DecidableEq

namespace Item

/-- The text that an item leaves in the message. -/
def shown (x : Item) : List Char :=
  match x.resolved with
  | none => x.toPair.raw referenceStart referenceEnd
  | some r => x.gap ++ r.outcome.text r.reference

def attachment (x : Item) : Option PublishedFileAttachment :=
  x.resolved.bind fun r => r.outcome.attachment

def path (x : Item) : Option String := x.resolved.map fun r => r.reference.path

end Item

/-- The text of some items as the agent wrote it. -/
def rawItems (items : List Item) : List Char :=
  Markers.rawAll referenceStart referenceEnd (items.map (·.toPair))

def shownItems (items : List Item) : List Char := items.flatMap Item.shown

def attachments (items : List Item) : List PublishedFileAttachment :=
  items.filterMap Item.attachment

/-- The bytes of some attachments. -/
def bytes (files : List PublishedFileAttachment) : ℕ := (files.map (·.data.length)).sum

def paths (items : List Item) : List String := items.filterMap Item.path

section Concat

variable (items : List Item) (x : Item)

@[simp] theorem rawItems_concat : rawItems (items ++ [x]) =
    rawItems items ++ x.toPair.raw referenceStart referenceEnd := by
  simp [rawItems]

@[simp] theorem shownItems_concat : shownItems (items ++ [x]) = shownItems items ++ x.shown := by
  simp [shownItems]

@[simp] theorem attachments_concat :
    attachments (items ++ [x]) = attachments items ++ x.attachment.toList := by
  cases h : x.attachment <;> simp [attachments, h]

@[simp] theorem paths_concat : paths (items ++ [x]) = paths items ++ x.path.toList := by
  cases h : x.path <;> simp [paths, h]

end Concat

section Specification

variable (fromStr : List Char → Option Json)
  (capture : FileReference → Except CaptureError PublishedFileAttachment)

/-- What a reference leads to, after some items. -/
inductive Leads (before : List Item) (reference : FileReference) : Outcome → Prop
  | repeated (h : reference.path ∈ paths before) : Leads before reference .repeated
  | attached {a : PublishedFileAttachment} (h : reference.path ∉ paths before)
      (hroom : (attachments before).length < maxPublishedFilesPerMessage)
      (hcapture : capture reference = .ok a)
      (hfits : bytes (attachments before) + a.data.length ≤ maxPublishedFileBytes) :
      Leads before reference (.attached a)
  | full (h : reference.path ∉ paths before)
      (hroom : maxPublishedFilesPerMessage ≤ (attachments before).length) :
      Leads before reference (.unavailable "a message can publish at most eight files")
  | tooLarge {a : PublishedFileAttachment} (h : reference.path ∉ paths before)
      (hcapture : capture reference = .ok a)
      (hfits : maxPublishedFileBytes < bytes (attachments before) + a.data.length) :
      Leads before reference
        (.unavailable "the published files exceed the combined 20 MiB message limit")
  | failed {error : CaptureError} (h : reference.path ∉ paths before)
      (hcapture : capture reference = .error error) :
      Leads before reference (.unavailable error.message)

/-- A stretch is resolved exactly when it is a reference and not escaped. -/
structure Settled (before : List Item) (x : Item) : Prop where
  resolved_iff : x.resolved.isSome = true ↔
    (parseReference fromStr x.payload).isSome = true ∧
      escaped (rawItems before ++ x.gap) = false
  leads : ∀ r, x.resolved = some r → parseReference fromStr x.payload = some r.reference ∧
    Leads capture before r.reference r.outcome

/-- The reference behind `front` is one of the items, and has been resolved. -/
def ResolvedAt (items : List Item) (front payload : List Char) : Prop :=
  ∃ xs x ys, items = xs ++ x :: ys ∧ rawItems xs ++ x.gap = front ∧ x.payload = payload ∧
    x.resolved.isSome = true

/-- Every item is what the items before it make it. -/
def Explained (items : List Item) : Prop :=
  ∀ xs x ys, items = xs ++ x :: ys → Settled fromStr capture xs x

end Specification

/-! ## A round -/

section Rounds

variable {fromStr : List Char → Option Json}
  {capture : FileReference → Except CaptureError PublishedFileAttachment}
  {content rest : List Char} {items : List Item} {s : Scan}

theorem explained_concat {x : Item} (h : Explained fromStr capture items)
    (hx : Settled fromStr capture items x) : Explained fromStr capture (items ++ [x]) := by
  intro xs y ys heq
  rcases List.eq_nil_or_concat ys with rfl | ⟨ys, z, rfl⟩
  · obtain ⟨rfl, hxy⟩ := List.append_inj' heq rfl
    rw [← List.cons.inj hxy |>.1]
    exact hx
  · have heq' : items ++ [x] = (xs ++ y :: ys) ++ [z] := by simpa using heq
    obtain ⟨rfl, -⟩ := List.append_inj' heq' rfl
    exact h xs y ys rfl

/-- What the scan has published is what the items say. -/
structure Published (items : List Item) (s : Scan) : Prop where
  attachments : s.attachments = attachments items
  capturedBytes : s.capturedBytes = bytes s.attachments
  capturedPaths : ∀ path, path ∈ s.capturedPaths ↔ path ∈ paths items
  atMost : s.attachments.length ≤ maxPublishedFilesPerMessage
  fits : s.capturedBytes ≤ maxPublishedFileBytes

theorem Published.repeated (h : Published items s) {reference : FileReference}
    (hpath : reference.path ∈ s.capturedPaths) (gap payload : List Char) :
    Published (items ++ [⟨⟨gap, payload⟩, some ⟨reference, .repeated⟩⟩]) s where
  attachments := by simp [h.attachments, Item.attachment, Outcome.attachment]
  capturedBytes := h.capturedBytes
  capturedPaths path := by
    have hseen := (h.capturedPaths reference.path).1 hpath
    simp only [h.capturedPaths, paths_concat, Item.path, Option.map_some, Option.toList_some,
      List.mem_append, List.mem_singleton]
    constructor
    · exact Or.inl
    · rintro (hp | rfl)
      · exact hp
      · exact hseen
  atMost := h.atMost
  fits := h.fits

theorem Published.unavailable (h : Published items s) (reference : FileReference) (why : String)
    (rendered gap payload : List Char) :
    Published (items ++ [⟨⟨gap, payload⟩, some ⟨reference, .unavailable why⟩⟩])
      { s with capturedPaths := reference.path :: s.capturedPaths, rendered } where
  attachments := by simp [h.attachments, Item.attachment, Outcome.attachment]
  capturedBytes := h.capturedBytes
  capturedPaths path := by simp [h.capturedPaths, Item.path, or_comm]
  atMost := h.atMost
  fits := h.fits

theorem Published.attached (h : Published items s) (reference : FileReference)
    {a : PublishedFileAttachment} (hroom : s.attachments.length < maxPublishedFilesPerMessage)
    (hfits : s.capturedBytes + a.data.length ≤ maxPublishedFileBytes)
    (gap payload : List Char) :
    Published (items ++ [⟨⟨gap, payload⟩, some ⟨reference, .attached a⟩⟩])
      { s with
        capturedPaths := reference.path :: s.capturedPaths
        capturedBytes := s.capturedBytes + a.data.length
        attachments := s.attachments ++ [a] } where
  attachments := by simp [h.attachments, Item.attachment, Outcome.attachment]
  capturedBytes := by simp [h.capturedBytes, bytes]
  capturedPaths path := by simp [h.capturedPaths, Item.path, or_comm]
  atMost := by
    rw [List.length_append, List.length_singleton]
    omega
  fits := hfits

variable (capture) in
theorem publish_spec (h : Published items s) (reference : FileReference) :
    ∃ o, Leads capture items reference o ∧
      (s.publish capture reference).rendered = s.rendered ++ o.text reference ∧
      (s.publish capture reference).cursor = s.cursor ∧
      ∀ gap payload, Published (items ++ [⟨⟨gap, payload⟩, some ⟨reference, o⟩⟩])
        (s.publish capture reference) := by
  unfold Scan.publish
  by_cases hpath : reference.path ∈ s.capturedPaths
  · rw [if_pos hpath]
    exact ⟨.repeated, .repeated ((h.capturedPaths _).1 hpath), (List.append_nil _).symm, rfl,
      h.repeated hpath⟩
  · rw [if_neg hpath]
    have hnew : reference.path ∉ paths items := mt (h.capturedPaths _).2 hpath
    dsimp only
    by_cases hroom : maxPublishedFilesPerMessage ≤ s.attachments.length
    · rw [if_pos hroom]
      rw [h.attachments] at hroom
      exact ⟨_, .full hnew hroom, rfl, rfl, h.unavailable reference _ _⟩
    · rw [if_neg hroom]
      rw [not_le] at hroom
      cases hcapture : capture reference with
      | error error =>
        exact ⟨_, .failed hnew hcapture, rfl, rfl, h.unavailable reference _ _⟩
      | ok a =>
        dsimp only
        have hbytes : s.capturedBytes = bytes (attachments items) := by
          rw [h.capturedBytes, h.attachments]
        by_cases hfits : s.capturedBytes + a.data.length ≤ maxPublishedFileBytes
        · rw [if_pos hfits]
          have hattached := h.attached reference hroom hfits
          rw [h.attachments] at hroom
          rw [hbytes] at hfits
          exact ⟨.attached a, .attached hnew hroom hcapture hfits, (List.append_nil _).symm, rfl,
            hattached⟩
        · rw [if_neg hfits]
          rw [not_le, hbytes] at hfits
          exact ⟨_, .tooLarge hnew hcapture hfits, rfl, rfl, h.unavailable reference _ _⟩

/-- The scan is behind some items, and `rest` is left. -/
structure Reached (fromStr : List Char → Option Json)
    (capture : FileReference → Except CaptureError PublishedFileAttachment)
    (content : List Char) (items : List Item) (rest : List Char) (s : Scan) : Prop where
  content_eq : content = rawItems items ++ rest
  cursor : s.cursor = byteLen (rawItems items)
  /-- What is shown is what is rendered and the text that has been passed since. -/
  text : ∃ front pending, rawItems items = front ++ pending ∧ s.textStart = byteLen front ∧
    shownItems items = s.rendered ++ pending
  published : Published items s
  explained : Explained fromStr capture items

variable (fromStr capture content) in
theorem reached_start : Reached fromStr capture content [] content {} where
  content_eq := rfl
  cursor := rfl
  text := ⟨[], [], rfl, rfl, rfl⟩
  published :=
    { attachments := rfl
      capturedBytes := rfl
      capturedPaths := fun path => by simp [paths]
      atMost := Nat.zero_le _
      fits := Nat.zero_le _ }
  explained xs x ys h := by simp at h

/-- No opening marker has a closing one behind it. -/
def Over (rest : List Char) : Prop :=
  ∀ a q b, rest ≠ a ++ (referenceStart ++ (q ++ referenceEnd :: b))

variable (fromStr capture) in
/-- What a round does, from the text that it finds. -/
theorem round_cases {read : List Char} (hcontent : content = read ++ rest)
    (hcursor : s.cursor = byteLen read) (hlt : s.cursor < byteLen content) :
    (s.round fromStr capture content = some (s, false) ∧ Over rest) ∨
    ∃ gap payload later,
      rest = gap ++ (referenceStart ++ (payload ++ referenceEnd :: later)) ∧
      Starts referenceStart gap (payload ++ referenceEnd :: later) ∧ referenceEnd ∉ payload ∧
      (escaped (read ++ gap) = true ∨ parseReference fromStr payload = none →
        s.round fromStr capture content = some ({ s with
          cursor := byteLen (read ++ Markers.Pair.raw referenceStart referenceEnd ⟨gap, payload⟩) },
          true)) ∧
      ∀ reference text, escaped (read ++ gap) = false →
        parseReference fromStr payload = some reference →
        slice content s.textStart (byteLen (read ++ gap)) = some text →
        s.round fromStr capture content = some (
          { ({ s with
                cursor := byteLen
                  (read ++ Markers.Pair.raw referenceStart referenceEnd ⟨gap, payload⟩)
                rendered := s.rendered ++ text }).publish capture reference with
            textStart := byteLen
              (read ++ Markers.Pair.raw referenceStart referenceEnd ⟨gap, payload⟩) }, true) := by
  have hfrom : sliceFrom content s.cursor = some rest := by
    rw [hcontent, hcursor, sliceFrom_append]
  unfold Scan.round
  rw [if_neg (not_not.2 hlt), hfrom]
  simp only [Option.bind_eq_bind, Option.bind_some]
  cases hstart : find referenceStart rest with
  | none => exact Or.inl ⟨rfl, fun a q b => find_eq_none hstart a _⟩
  | some n =>
    obtain ⟨gap, after, rfl, rfl, hfirst⟩ := find_eq_some hstart
    have hpayload : sliceFrom content (s.cursor + byteLen gap + byteLen referenceStart) =
        some after := by
      have hread : content = (read ++ gap ++ referenceStart) ++ after := by
        rw [hcontent]
        simp
      rw [hread, hcursor, ← byteLen_append, ← byteLen_append, sliceFrom_append]
    dsimp only
    rw [hpayload]
    simp only [Option.bind_some]
    cases hstop : find [referenceEnd] after with
    | none =>
      refine Or.inl ⟨rfl, fun a q b heq => ?_⟩
      -- a closing marker behind any opening one is behind the first one
      obtain ⟨z, hz⟩ := hfirst.after heq
      have hmem : referenceEnd ∈ referenceStart ++ after := by
        rw [hz]
        simp
      rcases List.mem_append.1 hmem with h | h
      · exact absurd h (by decide)
      · obtain ⟨u, v, huv⟩ := List.append_of_mem h
        exact find_eq_none hstop u v huv
    | some m =>
      obtain ⟨payload, later, rfl, rfl, hend⟩ := find_eq_some hstop
      have hread : content = (read ++ gap) ++ (referenceStart ++
          (payload ++ referenceEnd :: later)) := by
        rw [hcontent]
        simp
      have hstretch : content = (read ++ gap ++ referenceStart) ++
          (payload ++ referenceEnd :: later) := by
        rw [hread]
        simp
      have hescaped : isBackslashEscaped content (s.cursor + byteLen gap) =
          some (escaped (read ++ gap)) := by
        rw [isBackslashEscaped, hread, hcursor, ← byteLen_append, sliceTo_append,
          Option.map_some]
      have hslice : slice content (s.cursor + byteLen gap + byteLen referenceStart)
          (s.cursor + byteLen gap + byteLen referenceStart + byteLen payload) =
          some payload := by
        rw [hstretch, hcursor, ← byteLen_append, ← byteLen_append, slice_append]
      have hstop' : s.cursor + byteLen gap + byteLen referenceStart + byteLen payload +
          byteLen [referenceEnd] =
          byteLen (read ++ Markers.Pair.raw referenceStart referenceEnd ⟨gap, payload⟩) := by
        rw [hcursor]
        simp only [Markers.Pair.raw, byteLen_append]
        omega
      have hgap : s.cursor + byteLen gap = byteLen (read ++ gap) := by
        rw [hcursor, byteLen_append]
      refine Or.inr ⟨gap, payload, later, rfl, hfirst, hend.notMem, ?_, ?_⟩
      · intro hskip
        dsimp only
        rw [hescaped, hstop', hslice]
        simp only [Option.bind_some]
        rcases hskip with hskip | hskip
        · rw [if_pos hskip]
        · rw [hskip]
          split <;> rfl
      · intro reference text hplain hparse htext
        dsimp only
        rw [hescaped, hstop', hslice]
        simp only [Option.bind_some]
        rw [if_neg (by rw [hplain]; exact Bool.false_ne_true), hparse]
        dsimp only
        rw [hgap, htext]
        rfl

/-- A stretch that is passed over stays in the text. -/
theorem Reached.skip {gap payload later : List Char} {n : ℕ}
    (h : Reached fromStr capture content items
      (gap ++ (referenceStart ++ (payload ++ referenceEnd :: later))) s)
    (hskip : escaped (rawItems items ++ gap) = true ∨ parseReference fromStr payload = none)
    (hn : n = byteLen (rawItems items ++
      Markers.Pair.raw referenceStart referenceEnd ⟨gap, payload⟩)) :
    Reached fromStr capture content (items ++ [⟨⟨gap, payload⟩, none⟩]) later
      { s with cursor := n } where
  content_eq := by
    rw [h.content_eq]
    simp [Markers.Pair.raw]
  cursor := by rw [rawItems_concat, hn]
  text := by
    obtain ⟨front, pending, hraw, hstart, hshown⟩ := h.text
    refine ⟨front, pending ++ Markers.Pair.raw referenceStart referenceEnd ⟨gap, payload⟩,
      ?_, hstart, ?_⟩
    · rw [rawItems_concat, hraw, List.append_assoc]
    · rw [shownItems_concat, hshown, List.append_assoc]
      rfl
  published :=
    { attachments := by simp [h.published.attachments, Item.attachment]
      capturedBytes := h.published.capturedBytes
      capturedPaths := fun path => by simp [h.published.capturedPaths, Item.path]
      atMost := h.published.atMost
      fits := h.published.fits }
  explained := by
    refine explained_concat h.explained ⟨?_, fun r hr => by cases hr⟩
    rcases hskip with hskip | hskip
    · simp [hskip]
    · simp [hskip]

/-- A reference is taken out of the text, and what it leads to is put in its place. -/
theorem Reached.resolve {gap payload later : List Char} {reference : FileReference} {n : ℕ}
    (h : Reached fromStr capture content items
      (gap ++ (referenceStart ++ (payload ++ referenceEnd :: later))) s)
    (hplain : escaped (rawItems items ++ gap) = false)
    (hparse : parseReference fromStr payload = some reference)
    (hn : n = byteLen (rawItems items ++
      Markers.Pair.raw referenceStart referenceEnd ⟨gap, payload⟩)) :
    ∃ (text : List Char) (o : Outcome),
      slice content s.textStart (byteLen (rawItems items ++ gap)) = some text ∧
      Reached fromStr capture content (items ++ [⟨⟨gap, payload⟩, some ⟨reference, o⟩⟩]) later
        { ({ s with cursor := n, rendered := s.rendered ++ text }).publish capture reference with
          textStart := n } := by
  obtain ⟨front, pending, hraw, hstart, hshown⟩ := h.text
  have hpublished : Published items { s with cursor := n, rendered := s.rendered ++
      (pending ++ gap) } :=
    { attachments := h.published.attachments
      capturedBytes := h.published.capturedBytes
      capturedPaths := h.published.capturedPaths
      atMost := h.published.atMost
      fits := h.published.fits }
  obtain ⟨o, hleads, hrendered, hcursor, hafter⟩ := publish_spec capture hpublished reference
  refine ⟨pending ++ gap, o, ?_, ?_⟩
  · have hcut : content = front ++ ((pending ++ gap) ++
        (referenceStart ++ (payload ++ referenceEnd :: later))) := by
      rw [h.content_eq, hraw]
      simp
    rw [hraw, hstart, List.append_assoc, byteLen_append, hcut, slice_append]
  · have hdone := hafter gap payload
    exact
      { content_eq := by
          rw [h.content_eq]
          simp [Markers.Pair.raw]
        cursor := by
          rw [rawItems_concat, ← hn]
          exact hcursor
        text := by
          refine ⟨_, [], (List.append_nil _).symm, by rw [rawItems_concat, ← hn], ?_⟩
          rw [shownItems_concat, hshown, hrendered, Item.shown]
          simp
        published :=
          { attachments := hdone.attachments
            capturedBytes := hdone.capturedBytes
            capturedPaths := hdone.capturedPaths
            atMost := hdone.atMost
            fits := hdone.fits }
        explained := by
          refine explained_concat h.explained ⟨?_, ?_⟩
          · simp [hparse, hplain]
          · rintro r ⟨⟩
            exact ⟨hparse, hleads⟩ }

theorem round_spec (h : Reached fromStr capture content items rest s) :
    (s.round fromStr capture content = some (s, false) ∧ Over rest) ∨
    ∃ (x : Item) (later : List Char) (s' : Scan),
      s.round fromStr capture content = some (s', true) ∧
      rest = x.gap ++ (referenceStart ++ (x.payload ++ referenceEnd :: later)) ∧
      Starts referenceStart x.gap (x.payload ++ referenceEnd :: later) ∧
      referenceEnd ∉ x.payload ∧ Reached fromStr capture content (items ++ [x]) later s' := by
  by_cases hlt : s.cursor < byteLen content
  · rcases round_cases fromStr capture h.content_eq h.cursor hlt with
      hover | ⟨gap, payload, later, rfl, hfirst, hend, hskip, hresolve⟩
    · exact Or.inl hover
    · by_cases hpassed : escaped (rawItems items ++ gap) = true ∨
          parseReference fromStr payload = none
      · exact Or.inr ⟨⟨⟨gap, payload⟩, none⟩, later, _, hskip hpassed, rfl, hfirst, hend,
          h.skip hpassed rfl⟩
      · rw [not_or, Bool.not_eq_true] at hpassed
        obtain ⟨reference, hparse⟩ := Option.ne_none_iff_exists'.1 hpassed.2
        obtain ⟨text, o, htext, hreached⟩ := h.resolve hpassed.1 hparse rfl
        exact Or.inr ⟨⟨⟨gap, payload⟩, some ⟨reference, o⟩⟩, later, _,
          hresolve reference text hpassed.1 hparse htext, rfl, hfirst, hend, hreached⟩
  · have hrest : rest = [] := by
      rw [h.content_eq, byteLen_append, h.cursor] at hlt
      exact byteLen_eq_zero.1 (by omega)
    refine Or.inl ⟨?_, fun a q b heq => ?_⟩
    · rw [Scan.round, if_pos hlt]
    · rw [hrest] at heq
      simp at heq

/-! ## The loop -/

/-- **A whole run.**  With more fuel than there are bytes left the loop comes to the end, and has
found the stretches of the text. -/
theorem reached_loop {fuel : ℕ} (h : Reached fromStr capture content items rest s)
    (hfuel : byteLen rest < fuel) :
    ∃ found tail s', Scan.loop fromStr capture content fuel s = some s' ∧
      Reached fromStr capture content (items ++ found) tail s' ∧
      Markers.Paired referenceStart referenceEnd rest (found.map (·.toPair)) tail := by
  induction fuel generalizing items rest s with
  | zero => omega
  | succ fuel ih =>
    rcases round_spec h with ⟨hround, hover⟩ | ⟨x, later, s', hround, rfl, hfirst, hend, hnext⟩
    · refine ⟨[], rest, s, ?_, by rwa [List.append_nil], .stop hover⟩
      rw [Scan.loop, hround]
    · have hlater : byteLen later < fuel := by
        have hpos : 0 < byteLen referenceStart := by decide
        simp only [byteLen_append, byteLen_cons] at hfuel
        omega
      obtain ⟨found, tail, s'', hloop, hreached, hpaired⟩ := ih hnext hlater
      refine ⟨x :: found, tail, s'', ?_, ?_, .pair hfirst hend hpaired⟩
      · rw [Scan.loop, hround]
        exact hloop
      · rwa [List.append_assoc, List.singleton_append] at hreached

/-- A stretch that is found is resolved when it is a reference and not escaped. -/
theorem resolvedAt_iff {front payload : List Char} (h : Explained fromStr capture items)
    (hparse : (parseReference fromStr payload).isSome = true) (hplain : escaped front = false) :
    ResolvedAt items front payload ↔
      Markers.Found referenceStart referenceEnd (items.map (·.toPair)) front payload := by
  constructor
  · rintro ⟨xs, x, ys, rfl, hfront, hpayload, -⟩
    refine ⟨xs.map Item.toPair, x.toPair, ys.map Item.toPair, ?_, hfront, hpayload⟩
    rw [List.map_append, List.map_cons]
  · rintro ⟨xs', p, ys', heq, hfront, hpayload⟩
    obtain ⟨xs, zs, rfl, rfl, hzs⟩ := List.map_eq_append_iff.1 heq
    obtain ⟨x, ys, rfl, rfl, rfl⟩ := List.map_eq_cons_iff.1 hzs
    refine ⟨xs, x, ys, rfl, hfront, hpayload, (h xs x ys rfl).resolved_iff.2 ⟨?_, ?_⟩⟩
    · rwa [hpayload]
    · rw [← hplain, ← hfront]
      rfl

theorem prepare_eq (h : Reached fromStr capture content items rest s)
    (hloop : Scan.loop fromStr capture content (byteLen content + 1) {} = some s) :
    prepareMessageArtifacts fromStr capture content =
      some { content := shownItems items ++ rest, attachments := attachments items } := by
  obtain ⟨front, pending, hraw, hstart, hshown⟩ := h.text
  have hrest : sliceFrom content s.textStart = some (pending ++ rest) := by
    rw [h.content_eq, hraw, hstart, List.append_assoc, sliceFrom_append]
  simp only [prepareMessageArtifacts, hloop, hrest, Option.bind_eq_bind, Option.bind_some]
  rw [hshown, h.published.attachments, List.append_assoc]

end Rounds

/-- **A message as a whole.**  The scan ends without cutting a character; the text outside the
references is copied, at most eight files of at most 20 MiB in all are attached, and a reference
is resolved exactly when every opening marker before it has a closing one before it and its own
text holds no closing one. -/
theorem references_resolved (fromStr : List Char → Option Json)
    (capture : FileReference → Except CaptureError PublishedFileAttachment)
    (content : List Char) : ∃ items tail, content = rawItems items ++ tail ∧
      prepareMessageArtifacts fromStr capture content =
        some { content := shownItems items ++ tail, attachments := attachments items } ∧
      (attachments items).length ≤ maxPublishedFilesPerMessage ∧
      bytes (attachments items) ≤ maxPublishedFileBytes ∧
      Explained fromStr capture items ∧
      ∀ front payload suffix,
        content = front ++ (referenceStart ++ (payload ++ referenceEnd :: suffix)) →
        (parseReference fromStr payload).isSome = true → escaped front = false →
        (ResolvedAt items front payload ↔
          Markers.Closed referenceStart referenceEnd front ∧ referenceEnd ∉ payload) := by
  obtain ⟨items, tail, s, hloop, hreached, hpaired⟩ :=
    reached_loop (reached_start fromStr capture content) (Nat.lt_succ_self (byteLen content))
  rw [List.nil_append] at hreached
  have hpublished := hreached.published
  refine ⟨items, tail, hreached.content_eq, prepare_eq hreached hloop, ?_, ?_,
    hreached.explained, ?_⟩
  · rw [← hpublished.attachments]
    exact hpublished.atMost
  · rw [← hpublished.attachments, ← hpublished.capturedBytes]
    exact hpublished.fits
  · intro front payload suffix heq hparse hplain
    rw [resolvedAt_iff hreached.explained hparse hplain]
    exact hpaired.found_iff (by decide) (by decide) front payload suffix heq

/-! ## A marker that is only mentioned -/

def deckPayload : List Char := "\x7b\"path\":\"/workspace/deck.pptx\"\x7d".toList

def readDeck (payload : List Char) : Option Json :=
  if payload = deckPayload then some (.obj [("path", .str "/workspace/deck.pptx")]) else none

def deck : PublishedFileAttachment :=
  { name := "deck.pptx"
    mimeType := "application/vnd.openxmlformats-officedocument.presentationml.presentation"
    data := [80, 75, 3, 4] }

def captureDeck (_ : FileReference) : Except CaptureError PublishedFileAttachment := .ok deck

/-- The opening marker that the sentence speaks of takes the closing one of the reference, and the
path is shown. -/
theorem mentioned_marker_shows_path :
    (parseReference readDeck deckPayload).isSome = true ∧
    escaped (referenceStart ++ " opens a reference: ".toList) = false ∧
    prepareMessageArtifacts readDeck captureDeck (referenceStart ++ " opens a reference: ".toList ++
      (referenceStart ++ (deckPayload ++ [referenceEnd]))) =
      some { content := referenceStart ++ " opens a reference: ".toList ++
               (referenceStart ++ (deckPayload ++ [referenceEnd]))
             attachments := [] } := by
  decide +kernel

example : prepareMessageArtifacts readDeck captureDeck
    ("See ".toList ++ (referenceStart ++ (deckPayload ++ [referenceEnd]))) =
    some { content := "See ".toList, attachments := [deck] } := by
  decide +kernel

end XpressClaw.Workers.Artifacts
