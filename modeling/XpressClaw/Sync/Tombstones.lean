import Mathlib.Order.Bounds.Basic
import Mathlib.Order.WithBot
import XpressClaw.Lib.Runs
import XpressClaw.Sync.Idempotence
import XpressClaw.Sync.Order
import XpressClaw.Sync.Stages

/-!
# Tombstones of messages

A message of a Conversation is deleted by a local call or by a snapshot that has a later
deletion, and keeps the later of the two times.  Times are compared as texts.

* `tombstone` — when the message of a record was deleted; `⊥` stands for a message that was not.
* `tombstone_importConversationMessage` — an import takes the maximum.
* `tombstones_join` — over any run of imports and deletions the tombstone is the maximum of what
  was there and what came, whatever the order.
-/

namespace XpressClaw.Sync

open Lib

/-! ## Deleting a message -/

namespace Db

variable (texts : Texts) (db : Db)

/-- `UPDATE conversation_messages SET deleted_at = CURRENT_TIMESTAMP, …`, with its `WHERE`
clause. -/
def mark (now conversationId : String) (m : ConversationMessage) : ConversationMessage :=
  if m.conversationId = conversationId ∧ m.deletedAt.isNone then
    { m with
      deletedAt := some now
      processed := true }
  else m

/-- The statements of `delete_message` on the message and what hangs on it. -/
def markDeleted (conversationId : String) (messageId : ℕ) : Db :=
  { db with
    chatThread := { db.chatThread with
      messages := Table.modify (·.id) messageId (mark db.now conversationId)
        db.chatThread.messages }
    attachments := db.attachments.filter (· ≠ messageId)
    visualizations := db.visualizations.filter (· ≠ messageId) }

/-- `UPDATE conversations SET last_message_at = …, updated_at = CURRENT_TIMESTAMP`. -/
def refresh (conversationId : String) : Db :=
  { db with
    conversations := Table.modify (·.id) conversationId
      (fun c => { touch (db.lastMessageAt texts conversationId) c with updatedAt := db.now })
      db.conversations }

/-- `delete_message`: the turns that were stopped. -/
def deleteMessage (conversationId : String) (messageId : ℕ) : Except Error (List ℕ × Db) := do
  require ((Table.get (·.id) db.chatThread.messages messageId).any fun m =>
      m.conversationId = conversationId && m.deletedAt.isNone)
    (.conversation (.conversation s!"message {messageId} not found in conversation {conversationId}"))
  let (running, db) ← db.reconcileMessageDeletionTurns conversationId messageId
  .ok (running, (db.markDeleted conversationId messageId).refresh texts conversationId)

end Db

/-! ## Runs -/

/-- What can happen to the messages of Conversations. -/
inductive MessageOp where
  /-- The clock goes on. -/
  | wait (now : String)
  /-- A snapshot is loaded, which validates it, and imported. -/
  | importSnapshot (s : PortableSnapshot) (allowActiveConversations : Bool)
  | deleteMessage (conversationId : String) (messageId : ℕ)

/-- What a call leaves. -/
def MessageOp.exec (texts : Texts) (db : Db) : MessageOp → Except Error Db
  | wait now => .ok { db with now := now }
  | importSnapshot s allow => do
      s.validate texts
      let (_, db) ← db.importTransaction texts s allow
      .ok db
  | deleteMessage conversationId messageId => do
      let (_, db) ← db.deleteMessage texts conversationId messageId
      .ok db

/-- A call that fails leaves the database as it was. -/
def messageStep (texts : Texts) (db : Db) (o : MessageOp) : Db :=
  match o.exec texts db with
  | .ok db' => db'
  | .error _ => db

/-! ## Tombstones -/

/-- A time, in the order of its text; `⊥` is no time at all. -/
def stamp (deletedAt : Option String) : WithBot String := deletedAt

/-- When the message of a record was deleted. -/
def tombstone (db : Db) (recordId : String) : WithBot String :=
  stamp ((db.chatThread.find ConversationMessage.id recordId).bind (·.deletedAt))

/-- When a message of a snapshot was deleted. -/
def PortableConversationMessage.tombstone (p : PortableConversationMessage) : WithBot String :=
  match conversationMessageMetadata p.metadata with
  | .ok (_, deletedAt) => stamp deletedAt
  | .error _ => ⊥

/-- The tombstones that a list of messages has for a record. -/
def tombstonesOf (messages : List PortableConversationMessage) (recordId : String) :
    List (WithBot String) :=
  (messages.filter (·.recordId = recordId)).map (·.tombstone)

/-- The tombstones that a call brings for a record, if it succeeds. -/
def brings (texts : Texts) (db : Db) (o : MessageOp) (recordId : String) : List (WithBot String) :=
  match o, o.exec texts db with
  | .importSnapshot s _, .ok _ => tombstonesOf s.conversationMessages recordId
  | .deleteMessage _ messageId, .ok _ =>
      if (db.chatThread.find ConversationMessage.id recordId).any (·.id = messageId) then
        [stamp (some db.now)]
      else []
  | _, _ => []

/-- The tombstones that a run brings for a record. -/
def seen (texts : Texts) (recordId : String) : Db → List MessageOp → List (WithBot String)
  | _, [] => []
  | db, o :: ops => brings texts db o recordId ++ seen texts recordId (messageStep texts db o) ops

theorem stamp_laterDeletion (a b : Option String) :
    stamp (laterDeletion a b) = max (stamp a) (stamp b) := by
  cases a with
  | none => exact (max_eq_right (bot_le : ⊥ ≤ stamp b)).symm
  | some a =>
    cases b with
    | none => exact (max_eq_left (bot_le : ⊥ ≤ stamp (some a))).symm
    | some b =>
      by_cases hlt : b < a
      · have hle : stamp (some b) ≤ stamp (some a) := WithBot.coe_le_coe.2 (le_of_lt hlt)
        rw [laterDeletion, if_pos hlt, max_eq_left hle]
      · have hle : stamp (some a) ≤ stamp (some b) := WithBot.coe_le_coe.2 (le_of_not_gt hlt)
        rw [laterDeletion, if_neg hlt, max_eq_right hle]

/-! ## What an import does to a tombstone -/

namespace Thread

variable {μ : Type} {id : μ → ℕ} {t t' : Thread μ} {x : Record μ} {b : Bool}

/-- What the first loop makes of the message of a record. -/
def written (t : Thread μ) (x : Record μ) : Option μ → μ
  | some m => x.set m
  | none => x.insert t.nextId

/-- The first loop changes the message of one record. -/
theorem find_importRecord (hs : Sound id t) (hx : x.Lawful id)
    (h : importRecord id t x = .ok (b, t')) (recordId : String) :
    t'.find id recordId = if recordId = x.recordId then
      some (t.written x (t.find id recordId)) else t.find id recordId := by
  rcases importRecord_cases hs h with ⟨row, m, hrow, hm, -, -, rfl⟩ | ⟨hnone, -, rfl⟩
  · by_cases hid : recordId = x.recordId
    · subst hid
      rw [if_pos rfl]
      simp only [find, hrow, Option.bind_some, hm, written]
      rw [Table.get_modify hx.id_set, hm]
      simp
    · rw [if_neg hid]
      unfold find
      cases hrow' : Table.get (·.recordId) t.sync recordId with
      | none => rfl
      | some row' =>
        have hother : row'.messageId ≠ row.messageId := by
          intro hsame
          have hrecord := hs.single row' (Table.mem_of_get hrow') row
            (Table.mem_of_get hrow) hsame
          rw [Table.key_of_get hrow', Table.key_of_get hrow] at hrecord
          exact hid hrecord
        simp only [Option.bind_some]
        rw [Table.get_modify hx.id_set]
        simp [hother]
  · by_cases hid : recordId = x.recordId
    · subst hid
      have hfresh : Table.get id t.messages t.nextId = none := by
        rw [Table.get, List.find?_eq_none]
        intro m hm
        simpa using Nat.ne_of_lt (hs.fresh m hm)
      have hrow : Table.get (·.recordId) (t.sync ++ [⟨x.recordId, t.nextId, none⟩]) x.recordId =
          some ⟨x.recordId, t.nextId, none⟩ := by
        rw [Table.get_append, hnone, Option.none_or, Table.get_singleton, if_pos rfl]
      have hm : Table.get id (t.messages ++ [x.insert t.nextId]) t.nextId =
          some (x.insert t.nextId) := by
        rw [Table.get_append, hfresh, Option.none_or, Table.get_singleton, if_pos (hx.id_insert _)]
      rw [if_pos rfl]
      simp only [find, hrow, hnone, Option.bind_some, Option.bind_none, hm, written]
    · rw [if_neg hid]
      unfold find
      have hne : ¬ x.recordId = recordId := fun h => hid h.symm
      cases hrow' : Table.get (·.recordId) t.sync recordId with
      | none =>
        rw [Table.get_append, hrow', Option.none_or, Table.get_singleton, if_neg hne]
        rfl
      | some row' =>
        obtain ⟨m, hm⟩ := Option.isSome_iff_exists.1 (hs.message row' (Table.mem_of_get hrow'))
        rw [Table.get_append_of_some hrow', Option.bind_some, Option.bind_some, hm]
        exact Table.get_append_of_some hm

theorem find_importParent {label recordId : String} {parent : Option String} {existed : Bool}
    (h : importParent label recordId parent existed t = .ok t') (r : String) :
    t'.find id r = t.find id r := by
  obtain ⟨-, rfl⟩ := importParent_ok h
  unfold find
  rw [Table.get_modify (SyncRow.recordId_setParent parent)]
  cases Table.get (·.recordId) t.sync r with
  | none => rfl
  | some row =>
    rw [Option.map_some, Option.bind_some, Option.bind_some]
    split <;> rfl

theorem Sound.of_importParent {label recordId : String} {parent : Option String} {existed : Bool}
    (hs : Sound id t) (h : importParent label recordId parent existed t = .ok t') :
    Sound id t' := by
  obtain ⟨-, rfl⟩ := importParent_ok h
  have hrow : ∀ r' ∈ Table.modify (·.recordId) recordId (SyncRow.setParent parent) t.sync,
      ∃ r ∈ t.sync, r.messageId = r'.messageId ∧ r.recordId = r'.recordId := by
    intro r' hr'
    rcases Table.mem_modify hr' with ⟨hr, -⟩ | ⟨r, hr, -, rfl⟩
    · exact ⟨r', hr, rfl, rfl⟩
    · exact ⟨r, hr, rfl, rfl⟩
  refine ⟨fun r' hr' => ?_, hs.fresh, fun r' hr' q' hq' hsame => ?_⟩
  · obtain ⟨r, hr, hmessage, -⟩ := hrow r' hr'
    rw [← hmessage]
    exact hs.message r hr
  · obtain ⟨r, hr, hmessage, hrecord⟩ := hrow r' hr'
    obtain ⟨q, hq, hmessage', hrecord'⟩ := hrow q' hq'
    rw [← hrecord, ← hrecord']
    exact hs.single r hr q hq (hmessage.trans (hsame.trans hmessage'.symm))

end Thread

section Import

variable {texts : Texts} {db db' : Db} {s : PortableSnapshot}

/-- The first loop takes the later of two deletions. -/
theorem tombstone_importRecord {p : PortableConversationMessage} {metadata : Json}
    {remote : Option String} {chat : Thread ConversationMessage} {existed : Bool}
    (hs : db.chatThread.Sound ConversationMessage.id)
    (h : Thread.importRecord ConversationMessage.id db.chatThread
      (conversationRecord p metadata remote) = .ok (existed, chat)) (recordId : String) :
    tombstone { db with chatThread := chat } recordId =
      if recordId = p.recordId then max (tombstone db recordId) (stamp remote)
      else tombstone db recordId := by
  unfold tombstone
  have hfind := Thread.find_importRecord hs (lawful_conversationRecord p metadata remote) h recordId
  rw [show ({ db with chatThread := chat } : Db).chatThread = chat from rfl, hfind]
  by_cases hid : recordId = p.recordId
  · have hid' : recordId = (conversationRecord p metadata remote).recordId := hid
    rw [if_pos hid', if_pos hid]
    cases hm : db.chatThread.find ConversationMessage.id recordId with
    | none => exact (max_eq_right (bot_le : ⊥ ≤ stamp remote)).symm
    | some m => exact stamp_laterDeletion m.deletedAt remote
  · have hid' : ¬ recordId = (conversationRecord p metadata remote).recordId := hid
    rw [if_neg hid', if_neg hid]

/-- An import of a message takes the maximum of the two tombstones. -/
theorem tombstone_importConversationMessage {p : PortableConversationMessage} {r : Bool × List ℕ}
    (hs : db.chatThread.Sound ConversationMessage.id)
    (h : db.importConversationMessage p = .ok (r, db')) (recordId : String) :
    tombstone db' recordId = if recordId = p.recordId then
      max (tombstone db recordId) p.tombstone else tombstone db recordId := by
  obtain ⟨⟨metadata, remote⟩, hmetadata, h⟩ := bind_ok h
  obtain ⟨⟨existed, chat⟩, hrecord, h⟩ := bind_ok h
  have hremote : p.tombstone = stamp remote := by
    unfold PortableConversationMessage.tombstone
    rw [hmetadata]
  dsimp only at h
  split at h
  · cases h
  · obtain ⟨⟨stopped, db₁⟩, hsettle, h⟩ := bind_ok h
    cases h
    have hchat : db₁.chatThread = chat := (settleDeletion_ok hsettle).2.1
    have hsame : tombstone db₁ recordId = tombstone { db with chatThread := chat } recordId := by
      unfold tombstone
      rw [hchat]
    rw [hsame, tombstone_importRecord hs hrecord, hremote]

/-- The loop over the messages takes the maximum with each that is of the record. -/
theorem tombstone_each {messages : List PortableConversationMessage}
    (hs : db.chatThread.Sound ConversationMessage.id)
    (h : each (fun d p => (Db.importConversationMessage d p).map Prod.snd) messages db =
      .ok db') (recordId : String) :
    db'.chatThread.Sound ConversationMessage.id ∧
      tombstone db' recordId = (tombstonesOf messages recordId).foldl max
      (tombstone db recordId) := by
  induction messages generalizing db with
  | nil =>
    cases h
    exact ⟨hs, rfl⟩
  | cons p messages ih =>
    obtain ⟨db₁, hstep, h⟩ := bind_ok h
    obtain ⟨r, hstep⟩ := map_snd_ok hstep
    obtain ⟨hsound, hrest⟩ := ih (importConversationMessage_ok hs hstep).2.2.1 h
    refine ⟨hsound, ?_⟩
    rw [hrest, tombstone_importConversationMessage hs hstep]
    unfold tombstonesOf
    rw [List.filter_cons]
    by_cases hid : p.recordId = recordId
    · simp [hid]
    · have hid' : ¬ recordId = p.recordId := fun h => hid h.symm
      simp [hid, hid']

theorem foldl_tombstonesOf_perm {messages messages' : List PortableConversationMessage}
    (h : messages.Perm messages') (recordId : String) (a : WithBot String) :
    (tombstonesOf messages recordId).foldl max a = (tombstonesOf messages' recordId).foldl max a :=
  ((h.filter _).map _).foldl_eq a

theorem tombstone_importConversationMessages (hs : db.chatThread.Sound ConversationMessage.id)
    (hids : (s.conversationMessages.map (·.recordId)).Nodup) {stopped : List ℕ}
    (h : db.importConversationMessages texts s = .ok (stopped, db')) (recordId : String) :
    db'.chatThread.Sound ConversationMessage.id ∧ tombstone db' recordId =
      (tombstonesOf s.conversationMessages recordId).foldl max (tombstone db recordId) := by
  obtain ⟨messages, horder, h⟩ := bind_ok h
  obtain ⟨⟨imported, db₂⟩, himported, h⟩ := bind_ok h
  obtain ⟨chat, hparents, h⟩ := bind_ok h
  cases h
  obtain ⟨heach, -⟩ := eachWith_ok himported
  obtain ⟨hsound, htombstone⟩ := tombstone_each hs heach recordId
  have hchat : chat.Sound ConversationMessage.id ∧
      chat.find ConversationMessage.id recordId =
        db₂.chatThread.find ConversationMessage.id recordId := by
    refine each_invariant (I := fun t : Thread ConversationMessage =>
      t.Sound ConversationMessage.id ∧ t.find ConversationMessage.id recordId =
        db₂.chatThread.find ConversationMessage.id recordId)
      (fun t e t' _ ht hstep => ?_) ⟨hsound, rfl⟩ hparents
    exact ⟨ht.1.of_importParent hstep, (Thread.find_importParent hstep recordId).trans ht.2⟩
  refine ⟨hchat.1, ?_⟩
  rw [← foldl_tombstonesOf_perm (perm_inImportOrder hids horder), ← htombstone]
  unfold tombstone
  exact congrArg (fun m => stamp (m.bind (·.deletedAt))) hchat.2

theorem importTransaction_messages {allow : Bool} {stopped : List ℕ}
    (h : db.importTransaction texts s allow = .ok (stopped, db')) :
    ∃ db₁ : Db, db₁.chatThread = db.chatThread ∧
      db₁.importConversationMessages texts s = .ok (stopped, db') := by
  obtain ⟨stages⟩ := importTransaction_stages h
  have hfirst := congrArg Db.chatThread stages.first_eq
  have hsecond := congrArg Db.chatThread stages.second_eq
  have hthird := congrArg Db.chatThread stages.third_eq
  exact ⟨stages.third, hthird.trans (hsecond.trans hfirst), stages.importMessages⟩

theorem tombstone_importTransaction (hs : db.chatThread.Sound ConversationMessage.id)
    (hvalid : s.validate texts = .ok ()) {allow : Bool} {stopped : List ℕ}
    (h : db.importTransaction texts s allow = .ok (stopped, db')) (recordId : String) :
    db'.chatThread.Sound ConversationMessage.id ∧ tombstone db' recordId =
      (tombstonesOf s.conversationMessages recordId).foldl max (tombstone db recordId) := by
  obtain ⟨db₁, hchat, himport⟩ := importTransaction_messages h
  have hsame : tombstone db₁ recordId = tombstone db recordId := by
    unfold tombstone
    rw [hchat]
  rw [← hsame]
  exact tombstone_importConversationMessages (hchat ▸ hs)
    (PortableSnapshot.valid_of_validate hvalid).messageRecords himport recordId

end Import

/-! ## What a deletion does -/

section Deletion

variable {texts : Texts} {db db' : Db}

theorem id_mark (now conversationId : String) (m : ConversationMessage) :
    (Db.mark now conversationId m).id = m.id := by
  unfold Db.mark
  split <;> rfl

/-- A deletion writes the tombstone of a message that has none. -/
theorem tombstone_deleteMessage {conversationId : String} {messageId : ℕ} {running : List ℕ}
    (hs : db.chatThread.Sound ConversationMessage.id)
    (h : db.deleteMessage texts conversationId messageId = .ok (running, db')) (recordId : String) :
    db'.chatThread.Sound ConversationMessage.id ∧ tombstone db' recordId =
      if (db.chatThread.find ConversationMessage.id recordId).any (·.id = messageId) then
        max (tombstone db recordId) (stamp (some db.now))
      else tombstone db recordId := by
  obtain ⟨_, hvisible, h⟩ := bind_ok h
  obtain ⟨⟨running', db₁⟩, hreconcile, h⟩ := bind_ok h
  cases h
  have hvisible := require_ok.1 hvisible
  have hkept : db₁.chatThread = db.chatThread ∧ db₁.now = db.now := by
    unfold Db.reconcileMessageDeletionTurns at hreconcile
    split at hreconcile
    · cases hreconcile
    · cases hreconcile
      exact ⟨rfl, rfl⟩
  have hchat : ((db₁.markDeleted conversationId messageId).refresh texts
    conversationId).chatThread =
      { db.chatThread with
        messages := Table.modify (·.id) messageId (Db.mark db.now conversationId)
          db.chatThread.messages } := by
    rw [← hkept.1, ← hkept.2]
    rfl
  constructor
  · rw [hchat]
    refine ⟨fun r hr => ?_, fun m hm => ?_, hs.single⟩
    · rw [Table.isSome_get_modify (id_mark db.now conversationId)]
      exact hs.message r hr
    · rcases Table.mem_modify hm with ⟨hm, -⟩ | ⟨m₀, hm₀, -, rfl⟩
      · exact hs.fresh m hm
      · rw [id_mark]
        exact hs.fresh m₀ hm₀
  · unfold tombstone
    rw [hchat]
    unfold Thread.find
    cases hrow : Table.get (·.recordId) db.chatThread.sync recordId with
    | none => rfl
    | some row =>
      simp only [Option.bind_some]
      rw [Table.get_modify (id_mark db.now conversationId)]
      cases hm : Table.get ConversationMessage.id db.chatThread.messages row.messageId with
      | none => rfl
      | some m =>
        have hid : m.id = row.messageId := Table.key_of_get hm
        by_cases hmessage : row.messageId = messageId
        · rw [hmessage] at hm hid
          rw [hm] at hvisible
          obtain ⟨hconversation, hnone⟩ : m.conversationId = conversationId ∧
              m.deletedAt = none := by simpa using hvisible
          simp only [Option.map_some, if_pos hmessage, Option.bind_some, Option.any_some, hid,
            hnone, Db.mark, hconversation]
          exact (max_eq_right (bot_le : ⊥ ≤ stamp (some db.now))).symm
        · have hne : ¬ m.id = messageId := fun heq => hmessage (hid ▸ heq)
          simp [hmessage, hne]

end Deletion

/-! ## Runs of imports and deletions -/

section Runs

variable {db : Db}

/-- One call takes the maximum of the tombstone and what it brings. -/
theorem tombstone_messageStep (texts : Texts) (hs : db.chatThread.Sound ConversationMessage.id)
    (o : MessageOp) (recordId : String) :
    (messageStep texts db o).chatThread.Sound ConversationMessage.id ∧
      tombstone (messageStep texts db o) recordId =
        (brings texts db o recordId).foldl max (tombstone db recordId) := by
  unfold messageStep brings
  cases hexec : o.exec texts db with
  | error e =>
    refine ⟨hs, ?_⟩
    cases o <;> rfl
  | ok db' =>
    cases o with
    | wait now =>
      cases hexec
      exact ⟨hs, rfl⟩
    | importSnapshot s allow =>
      obtain ⟨_, hvalid, himport⟩ := bind_ok hexec
      obtain ⟨⟨stopped, db₁⟩, himport, hok⟩ := bind_ok himport
      cases hok
      exact tombstone_importTransaction hs hvalid himport recordId
    | deleteMessage conversationId messageId =>
      obtain ⟨⟨running, db₁⟩, hdelete, hok⟩ := bind_ok hexec
      cases hok
      obtain ⟨hsound, htombstone⟩ := tombstone_deleteMessage hs hdelete recordId
      refine ⟨hsound, htombstone.trans ?_⟩
      dsimp only
      split <;> rfl

theorem tombstone_run (texts : Texts) (hs : db.chatThread.Sound ConversationMessage.id)
    (ops : List MessageOp) (recordId : String) :
    (runOps (messageStep texts) db ops).chatThread.Sound ConversationMessage.id ∧
      tombstone (runOps (messageStep texts) db ops) recordId =
        (seen texts recordId db ops).foldl max (tombstone db recordId) := by
  induction ops generalizing db with
  | nil => exact ⟨hs, rfl⟩
  | cons o ops ih =>
    obtain ⟨hsound, hstep⟩ := tombstone_messageStep texts hs o recordId
    obtain ⟨hsound', hrest⟩ := ih hsound
    refine ⟨hsound', ?_⟩
    rw [runOps_cons, hrest, hstep, seen, List.foldl_append]

/-- A fold of `max` is the maximum. -/
theorem isGreatest_foldl_max {α : Type} [LinearOrder α] (vs : List α) (a : α) :
    IsGreatest (insert a {v | v ∈ vs}) (vs.foldl max a) := by
  induction vs generalizing a with
  | nil => exact ⟨Or.inl rfl, by rintro b (rfl | hb); exacts [le_rfl, absurd hb List.not_mem_nil]⟩
  | cons v vs ih =>
    obtain ⟨hmem, hupper⟩ := ih (max a v)
    have hmax : max a v ≤ vs.foldl max (max a v) := hupper (Or.inl rfl)
    rw [List.foldl_cons]
    constructor
    · rcases hmem with heq | hmem
      · rw [heq]
        rcases max_choice a v with h | h
        · exact Or.inl h
        · rw [h]
          exact Or.inr (List.mem_cons_self ..)
      · exact Or.inr (List.mem_cons_of_mem _ hmem)
    · rintro b (rfl | hb)
      · exact (le_max_left _ _).trans hmax
      · rcases List.mem_cons.1 hb with rfl | hb
        · exact (le_max_right _ _).trans hmax
        · exact hupper (Or.inr hb)

theorem foldl_max_eq_self {α : Type} [LinearOrder α] {vs : List α} {a : α}
    (h : ∀ v ∈ vs, v ≤ a) : vs.foldl max a = a := by
  induction vs with
  | nil => rfl
  | cons v vs ih =>
    rw [List.foldl_cons, max_eq_left (h v (List.mem_cons_self ..))]
    exact ih fun w hw => h w (List.mem_cons_of_mem _ hw)

/-- All calls of a list succeed, one after the other. -/
def Succeeds (texts : Texts) : Db → List MessageOp → Prop
  | _, [] => True
  | db, o :: ops => (o.exec texts db).isOk = true ∧ Succeeds texts (messageStep texts db o) ops

instance (texts : Texts) : ∀ (db : Db) (ops : List MessageOp), Decidable (Succeeds texts db ops)
  | _, [] => inferInstanceAs (Decidable True)
  | db, o :: ops =>
      have : Decidable (Succeeds texts (messageStep texts db o) ops) :=
        instDecidableSucceeds texts _ ops
      inferInstanceAs (Decidable (_ ∧ _))

/-- What successful imports bring is what their snapshots have. -/
theorem seen_imports {snapshots : List (PortableSnapshot × Bool)}
    (h : Succeeds texts db (snapshots.map fun e => .importSnapshot e.1 e.2)) (recordId : String) :
    seen texts recordId db (snapshots.map fun e => .importSnapshot e.1 e.2) =
      snapshots.flatMap fun e => tombstonesOf e.1.conversationMessages recordId := by
  induction snapshots generalizing db with
  | nil => rfl
  | cons e snapshots ih =>
    obtain ⟨hok, hrest⟩ := h
    rw [List.map_cons, seen, ih hrest, List.flatMap_cons]
    congr 1
    unfold brings
    cases hexec : MessageOp.exec texts db (.importSnapshot e.1 e.2) with
    | error err =>
      rw [hexec] at hok
      cases hok
    | ok db' => rfl

/-- A snapshot that was imported brings nothing later when it is imported again. -/
theorem tombstone_twice (hs : db.chatThread.Sound ConversationMessage.id) {s : PortableSnapshot}
    {allow : Bool} (h : (MessageOp.exec texts db (.importSnapshot s allow)).isOk)
    (allow' : Bool) (recordId : String) :
    tombstone (runOps (messageStep texts) db [.importSnapshot s allow, .importSnapshot s allow'])
        recordId =
      tombstone (runOps (messageStep texts) db [.importSnapshot s allow]) recordId := by
  obtain ⟨hsound, hfirst⟩ :=
    tombstone_messageStep texts hs (.importSnapshot s allow) recordId
  have hbrought : brings texts db (.importSnapshot s allow) recordId =
      tombstonesOf s.conversationMessages recordId := by
    unfold brings
    cases hexec : MessageOp.exec texts db (.importSnapshot s allow) with
    | error e =>
      rw [hexec] at h
      cases h
    | ok db' => rfl
  rw [hbrought] at hfirst
  simp only [runOps_cons, runOps_nil]
  rw [(tombstone_messageStep _ hsound (.importSnapshot s allow') recordId).2]
  -- all that the second import can bring is below the tombstone already
  apply foldl_max_eq_self
  intro v hv
  rw [hfirst]
  unfold brings at hv
  split at hv
  · rename_i s' _ _ hop _
    cases hop
    exact (isGreatest_foldl_max _ _).2 (Or.inr hv)
  · rename_i hop _
    cases hop
  · cases hv

/-- The tombstones of messages are a join.  After any run of imports and local deletions the
tombstone of a message is the maximum of the one it had and of those that the calls brought; so
the order of imports that go through makes no difference, a snapshot that is imported twice
changes nothing the second time, and a deleted message stays deleted. -/
theorem tombstones_join (texts : Texts) (db : Db)
    (hs : db.chatThread.Sound ConversationMessage.id) (recordId : String) :
    (∀ ops, IsGreatest (insert (tombstone db recordId) {v | v ∈ seen texts recordId db ops})
      (tombstone (runOps (messageStep texts) db ops) recordId)) ∧
    (∀ snapshots snapshots' : List (PortableSnapshot × Bool), snapshots.Perm snapshots' →
      Succeeds texts db (snapshots.map fun e => .importSnapshot e.1 e.2) →
      Succeeds texts db (snapshots'.map fun e => .importSnapshot e.1 e.2) →
      tombstone (runOps (messageStep texts) db (snapshots.map fun e => .importSnapshot e.1 e.2))
          recordId =
        tombstone (runOps (messageStep texts) db (snapshots'.map fun e => .importSnapshot e.1 e.2))
          recordId) ∧
    (∀ ops s allow allow',
      (MessageOp.exec texts (runOps (messageStep texts) db ops) (.importSnapshot s allow)).isOk →
      tombstone (runOps (messageStep texts) db
          (ops ++ [.importSnapshot s allow, .importSnapshot s allow'])) recordId =
        tombstone (runOps (messageStep texts) db (ops ++ [.importSnapshot s allow])) recordId) ∧
    ∀ ops ops', tombstone (runOps (messageStep texts) db ops) recordId ≠ ⊥ →
      tombstone (runOps (messageStep texts) db (ops ++ ops')) recordId ≠ ⊥ := by
  refine ⟨fun ops => ?_, fun snapshots snapshots' hperm h h' => ?_, fun ops s allow allow' h => ?_,
    fun ops ops' h => ?_⟩
  · rw [(tombstone_run _ hs ops recordId).2]
    exact isGreatest_foldl_max _ _
  · rw [(tombstone_run _ hs _ recordId).2, (tombstone_run _ hs _ recordId).2, seen_imports h,
      seen_imports h']
    exact (hperm.flatMap_right _).foldl_eq _
  · obtain ⟨hsound, -⟩ := tombstone_run texts hs ops recordId
    rw [runOps_append, runOps_append]
    exact tombstone_twice hsound h allow' recordId
  · obtain ⟨hsound, -⟩ := tombstone_run texts hs ops recordId
    rw [runOps_append, (tombstone_run _ hsound ops' recordId).2]
    exact ne_bot_of_le_ne_bot h ((isGreatest_foldl_max _ _).2 (Or.inl rfl))

/-- A Project with one message, which was deleted at a time or not at all. -/
def oneMessage (deletedAt : Option String) : PortableSnapshot where
  project := { id := "project-one" }
  conversations := [{ id := "conversation-one" }]
  conversationMessages := [
    { recordId := "message-one"
      conversationId := "conversation-one"
      senderType := "user"
      senderId := "local-user"
      content := "one"
      messageType := "message"
      metadata := .obj (deletedAt.toList.map fun time => (deletedAtKey, .str time))
      createdAt := "2026-01-01 00:00:00" }]

/-- The message comes visible, deleted, visible again and deleted earlier. -/
def tombstoneRun : List MessageOp :=
  [none, some "2026-01-03 00:00:00", none, some "2026-01-02 00:00:00"].map fun deletedAt =>
    .importSnapshot (oneMessage deletedAt) false

theorem tombstones_join_oneMessage :
    tombstone (runOps (messageStep verbatim) {} tombstoneRun) "message-one" =
        stamp (some "2026-01-03 00:00:00") ∧
      IsGreatest (insert (tombstone {} "message-one")
          {v | v ∈ seen verbatim "message-one" {} tombstoneRun})
        (stamp (some "2026-01-03 00:00:00")) := by
  have hend : tombstone (runOps (messageStep verbatim) {} tombstoneRun) "message-one" =
      stamp (some "2026-01-03 00:00:00") := by decide +kernel
  have hsound : ({} : Db).chatThread.Sound ConversationMessage.id := ⟨by simp, by simp, by simp⟩
  have hgreatest := (tombstones_join verbatim {} hsound "message-one").1 tombstoneRun
  rw [hend] at hgreatest
  exact ⟨hend, hgreatest⟩

end Runs

end XpressClaw.Sync
