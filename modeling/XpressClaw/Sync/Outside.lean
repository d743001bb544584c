import XpressClaw.Conversations.Elsewhere
import XpressClaw.Sync.Stages
import XpressClaw.Sync.Tombstones

/-!
# What an import leaves alone

An import writes the rows of the records of its snapshot.  Every other row of a table that is
synchronized stays as it is.

* `Thread.Aside` — messages whose records are not in the snapshot, whichever id they have.
* `Struck` — what a message that is deleted takes along: its attachments and visualizations, and
  the turns of its conversation.
* `Outside` — the tables of an import, one after another; `importTransaction_outside`.
-/

namespace XpressClaw.Sync

open Lib

/-! ## Messages -/

section Threads

variable {μ : Type} {id : μ → ℕ} {ids : List String} {t t' t'' : Thread μ} {x : Record μ}

/-- Only messages of the records of a list are changed or inserted. -/
structure Thread.Aside (id : μ → ℕ) (ids : List String) (t t' : Thread μ) : Prop where
  sync : Table.rest (·.recordId) ids t'.sync = Table.rest (·.recordId) ids t.sync
  kept : ∀ m ∈ t.messages, (∀ r ∈ t.sync, r.messageId = id m → r.recordId ∉ ids) →
    m ∈ t'.messages
  changed : ∀ m ∈ t'.messages, m ∈ t.messages ∨
    ∃ r ∈ t'.sync, r.messageId = id m ∧ r.recordId ∈ ids
  /-- No record loses its message, and none gets a message that was there before. -/
  records : ∀ r ∈ t.sync, ∃ r' ∈ t'.sync, r'.messageId = r.messageId ∧ r'.recordId = r.recordId
  linked : ∀ r ∈ t'.sync, r.messageId < t.nextId →
    ∃ r₀ ∈ t.sync, r₀.messageId = r.messageId ∧ r₀.recordId = r.recordId
  nextId : t.nextId ≤ t'.nextId

namespace Thread.Aside

theorem refl (id : μ → ℕ) (ids : List String) (t : Thread μ) : Aside id ids t t :=
  ⟨rfl, fun _ hm _ => hm, fun _ hm => Or.inl hm, fun r hr => ⟨r, hr, rfl, rfl⟩,
    fun r hr _ => ⟨r, hr, rfl, rfl⟩, le_rfl⟩

theorem trans (hs : t.Sound id) (h : Aside id ids t t') (h' : Aside id ids t' t'') :
    Aside id ids t t'' := by
  refine ⟨h'.sync.trans h.sync, fun m hm hnot => ?_, fun m hm => ?_, fun r hr => ?_,
    fun r hr hlt => ?_, h.nextId.trans h'.nextId⟩
  · refine h'.kept m (h.kept m hm hnot) fun r hr hid => ?_
    obtain ⟨r₀, hr₀, hmessage, hrecord⟩ := h.linked r hr (by rw [hid]; exact hs.fresh m hm)
    rw [← hrecord]
    exact hnot r₀ hr₀ (hmessage.trans hid)
  · rcases h'.changed m hm with hm | hm
    · rcases h.changed m hm with hm | ⟨r, hr, hid, hmem⟩
      · exact Or.inl hm
      · obtain ⟨r', hr', hmessage, hrecord⟩ := h'.records r hr
        exact Or.inr ⟨r', hr', hmessage.trans hid, hrecord ▸ hmem⟩
    · exact Or.inr hm
  · obtain ⟨r', hr', hmessage, hrecord⟩ := h.records r hr
    obtain ⟨r'', hr'', hmessage', hrecord'⟩ := h'.records r' hr'
    exact ⟨r'', hr'', hmessage'.trans hmessage, hrecord'.trans hrecord⟩
  · obtain ⟨r', hr', hmessage, hrecord⟩ := h'.linked r hr (hlt.trans_le h.nextId)
    obtain ⟨r₀, hr₀, hmessage', hrecord'⟩ := h.linked r' hr' (by rw [hmessage]; exact hlt)
    exact ⟨r₀, hr₀, hmessage'.trans hmessage, hrecord'.trans hrecord⟩

end Thread.Aside

theorem Thread.aside_importRecord {b : Bool} (hs : t.Sound id) (hx : x.Lawful id)
    (hmem : x.recordId ∈ ids) (h : Thread.importRecord id t x = .ok (b, t')) :
    t.Aside id ids t' := by
  rcases importRecord_cases hs h with ⟨row, m, hrow, hm, -, -, rfl⟩ | ⟨hnone, -, rfl⟩
  · have hrecord : row.recordId ∈ ids := by
      rw [Table.key_of_get hrow]
      exact hmem
    refine ⟨rfl, fun m' hm' hnot => ?_, fun m' hm' => ?_, fun r hr => ⟨r, hr, rfl, rfl⟩,
      fun r hr _ => ⟨r, hr, rfl, rfl⟩, le_rfl⟩
    · refine List.mem_map.2 ⟨m', hm', if_neg fun hid => ?_⟩
      exact hnot row (Table.mem_of_get hrow) hid.symm hrecord
    · rcases Table.mem_modify hm' with ⟨hm', -⟩ | ⟨m₀, -, hid, rfl⟩
      · exact Or.inl hm'
      · exact Or.inr ⟨row, Table.mem_of_get hrow, by rw [hx.id_set, hid], hrecord⟩
  · refine ⟨?_, fun m hm _ => List.mem_append_left _ hm, fun m hm => ?_, fun r hr =>
      ⟨r, List.mem_append_left _ hr, rfl, rfl⟩, fun r hr hlt => ?_, Nat.le_succ _⟩
    · refine Table.rest_append_of_mem fun r hr => ?_
      rw [List.mem_singleton.1 hr]
      exact hmem
    · rcases List.mem_append.1 hm with hm | hm
      · exact Or.inl hm
      · refine Or.inr ⟨_, List.mem_append_right _ (List.mem_singleton_self _), ?_, hmem⟩
        rw [List.mem_singleton.1 hm, hx.id_insert]
    · rcases List.mem_append.1 hr with hr | hr
      · exact ⟨r, hr, rfl, rfl⟩
      · rw [List.mem_singleton.1 hr] at hlt
        exact absurd hlt (lt_irrefl _)

theorem Thread.aside_importParent {label recordId : String} {parent : Option String}
    {existed : Bool} (hmem : recordId ∈ ids)
    (h : Thread.importParent label recordId parent existed t = .ok t') : t.Aside id ids t' := by
  obtain ⟨-, rfl⟩ := importParent_ok h
  refine ⟨Table.rest_modify hmem (SyncRow.recordId_setParent parent) _, fun m hm _ => hm,
    fun m hm => Or.inl hm, fun r hr => ?_, fun r hr _ => ?_, le_rfl⟩
  · refine ⟨_, List.mem_map_of_mem hr, ?_⟩
    split <;> exact ⟨rfl, rfl⟩
  · obtain ⟨r₀, hr₀, rfl⟩ := List.mem_map.1 hr
    refine ⟨r₀, hr₀, ?_⟩
    split <;> exact ⟨rfl, rfl⟩

theorem Thread.aside_each {χ : Type} {step : Thread μ → χ → Except Error (Thread μ)} {xs : List χ}
    (hs : t.Sound id)
    (hstep : ∀ d x d', x ∈ xs → d.Sound id → step d x = .ok d' → d'.Sound id ∧ d.Aside id ids d')
    (h : each step xs t = .ok t') : t'.Sound id ∧ t.Aside id ids t' := by
  refine each_invariant (I := fun d => d.Sound id ∧ t.Aside id ids d) (fun d x d' hx hd hok => ?_)
    ⟨hs, .refl id ids t⟩ h
  obtain ⟨hsound, haside⟩ := hstep d x d' hx hd.1 hok
  exact ⟨hsound, .trans hs hd.2 haside⟩

end Threads

variable {texts : Texts} {s : PortableSnapshot} {db db' : Db}

/-- The record ids of a snapshot's messages. -/
def PortableSnapshot.taskRecords (s : PortableSnapshot) : List String :=
  s.taskMessages.map (·.recordId)

def PortableSnapshot.conversationRecords (s : PortableSnapshot) : List String :=
  s.conversationMessages.map (·.recordId)

theorem importTaskMessages_aside (hs : db.taskThread.Sound TaskMessage.id)
    (h : db.importTaskMessages s = .ok db') :
    db.taskThread.Aside TaskMessage.id s.taskRecords db'.taskThread := by
  obtain ⟨messages, horder, h⟩ := bind_ok h
  obtain ⟨⟨imported, thread⟩, himported, h⟩ := bind_ok h
  obtain ⟨thread', hparents, h⟩ := bind_ok h
  cases h
  obtain ⟨heach, hkeys⟩ := eachWith_ok himported
  have hrecord : ∀ p ∈ messages, p.recordId ∈ s.taskRecords := fun p hp =>
    List.mem_map_of_mem (mem_inImportOrder horder p hp)
  obtain ⟨hsound, hfirst⟩ := Thread.aside_each hs (fun d p d' hp hd hstep => by
    obtain ⟨b, hb⟩ := map_snd_ok hstep
    exact ⟨hd.of_importRecord (lawful_taskRecord p) hb,
      Thread.aside_importRecord hd (lawful_taskRecord p) (hrecord p hp) hb⟩) heach
  obtain ⟨-, hsecond⟩ := Thread.aside_each hsound (fun d e d' he hd hstep => by
    have hmem : e.1 ∈ messages := hkeys ▸ List.mem_map_of_mem he
    exact ⟨hd.of_importParent hstep, Thread.aside_importParent (hrecord _ hmem) hstep⟩) hparents
  exact hfirst.trans hs hsecond

/-! ## What a deletion takes along -/

/-- The turns of a conversation. -/
def Db.turnsIn (db : Db) (c : String) : List Conversations.ConversationTurn :=
  db.turns.filter (·.conversationId = c)

theorem settleDeletion_cases {c : String} {m : ConversationMessage} {became : Bool}
    {stopped : List ℕ} (h : db.settleDeletion c m became = .ok (stopped, db')) :
    (m.deletedAt = none ∧ db' = db) ∨
      (m.deletedAt.isSome ∧ ∃ turns next,
        db' = { db with
          turns := turns
          nextTurnId := next
          attachments := db.attachments.filter (· ≠ m.id)
          visualizations := db.visualizations.filter (· ≠ m.id) } ∧
        (became = false → turns = db.turns) ∧
        (db.lanes.Schema → db'.lanes.Schema ∧
          ∀ c', c' ≠ c → db'.turnsIn c' = db.turnsIn c')) := by
  unfold Db.settleDeletion at h
  split at h
  · next hnone =>
      cases h
      exact Or.inl ⟨Option.isNone_iff_eq_none.1 hnone, rfl⟩
  · next hsome =>
      have hdeleted : m.deletedAt.isSome := by simpa [Option.isSome_iff_ne_none] using hsome
      obtain ⟨⟨_, db₁⟩, hstop, h⟩ := bind_ok h
      cases h
      refine Or.inr ⟨hdeleted, ?_⟩
      unfold Db.stopTurns at hstop
      split at hstop
      · next hbecame =>
          unfold Db.reconcileMessageDeletionTurns at hstop
          split at hstop
          · cases hstop
          · next lanes' hlanes =>
              cases hstop
              have hwithin := Conversations.Db.reconcileMessageDeletionTurns_within hlanes
              refine ⟨_, _, rfl, fun hnot => ?_, fun hschema => ?_⟩
              · rw [hbecame] at hnot
                cases hnot
              · have hnew := hwithin.evolves.schema hschema
                refine ⟨⟨hnew.apart, hnew.fresh⟩, fun c' hne => ?_⟩
                have helse : lanes'.turns.filter (·.conversationId ≠ c) =
                    db.turns.filter (·.conversationId ≠ c) := hwithin.elsewhere hschema
                have hpick : ∀ turns : List Conversations.ConversationTurn,
                    turns.filter (·.conversationId = c') =
                      (turns.filter (·.conversationId ≠ c)).filter (·.conversationId = c') := by
                  intro turns
                  rw [List.filter_filter]
                  refine List.filter_congr fun t _ => ?_
                  by_cases ht : t.conversationId = c' <;> simp [ht, hne]
                show lanes'.turns.filter (·.conversationId = c') =
                  db.turns.filter (·.conversationId = c')
                rw [hpick, helse, ← hpick]
      · cases hstop
        exact ⟨_, _, rfl, fun _ => rfl, fun hschema =>
          ⟨⟨hschema.apart, hschema.fresh⟩, fun _ _ => rfl⟩⟩

/-- The message of a record of the list, deleted. -/
def Buried (ids : List String) (db : Db) (n : ℕ) : Prop :=
  ∃ r ∈ db.chatThread.sync, r.messageId = n ∧ r.recordId ∈ ids ∧ tombstone db r.recordId ≠ ⊥

/-- A message of the conversation is deleted that was not deleted before. -/
def Strikes (s : PortableSnapshot) (c : String) (db db' : Db) : Prop :=
  ∃ p ∈ s.conversationMessages, p.conversationId = c ∧ tombstone db p.recordId = ⊥ ∧
    tombstone db' p.recordId ≠ ⊥

/-- What the messages of a snapshot do to the rows that hang on messages. -/
structure Struck (s : PortableSnapshot) (db db' : Db) : Prop where
  sound : db'.chatThread.Sound ConversationMessage.id
  aside : db.chatThread.Aside ConversationMessage.id s.conversationRecords db'.chatThread
  schema : db'.lanes.Schema
  later : ∀ recordId, tombstone db recordId ≤ tombstone db' recordId
  gone : ∃ gone : List ℕ, db'.attachments = db.attachments.filter (· ∉ gone) ∧
    db'.visualizations = db.visualizations.filter (· ∉ gone) ∧
    ∀ n ∈ gone, Buried s.conversationRecords db' n
  turns : ∀ c, Strikes s c db db' ∨ db'.turnsIn c = db.turnsIn c

theorem Struck.refl (hs : db.chatThread.Sound ConversationMessage.id) (hturns : db.lanes.Schema) :
    Struck s db db :=
  ⟨hs, .refl _ _ _, hturns, fun _ => le_rfl, ⟨[], by simp, by simp, by simp⟩,
    fun _ => Or.inr rfl⟩

theorem Buried.mono {ids : List String} {n : ℕ} (h : Buried ids db n)
    (haside : db.chatThread.Aside ConversationMessage.id ids db'.chatThread)
    (hlater : ∀ recordId, tombstone db recordId ≤ tombstone db' recordId) :
    Buried ids db' n := by
  obtain ⟨r, hr, hn, hmem, hstone⟩ := h
  obtain ⟨r', hr', hmessage, hrecord⟩ := haside.records r hr
  refine ⟨r', hr', hmessage.trans hn, hrecord ▸ hmem, ?_⟩
  rw [hrecord]
  exact ne_bot_of_le_ne_bot hstone (hlater _)

theorem Struck.trans {db'' : Db} (hs : db.chatThread.Sound ConversationMessage.id)
    (h : Struck s db db') (h' : Struck s db' db'') : Struck s db db'' := by
  refine ⟨h'.sound, h.aside.trans hs h'.aside, h'.schema,
    fun recordId => (h.later recordId).trans (h'.later recordId), ?_, fun c => ?_⟩
  · obtain ⟨gone, hattachments, hvisualizations, hburied⟩ := h.gone
    obtain ⟨gone', hattachments', hvisualizations', hburied'⟩ := h'.gone
    have hfilter : ∀ rows : List ℕ, (rows.filter (· ∉ gone)).filter (· ∉ gone') =
        rows.filter (· ∉ gone ++ gone') := by
      intro rows
      rw [List.filter_filter]
      refine List.filter_congr fun n _ => ?_
      simp [Bool.and_comm]
    refine ⟨gone ++ gone', ?_, ?_, fun n hn => ?_⟩
    · rw [hattachments', hattachments, hfilter]
    · rw [hvisualizations', hvisualizations, hfilter]
    · rcases List.mem_append.1 hn with hn | hn
      · exact (hburied n hn).mono h'.aside h'.later
      · exact hburied' n hn
  · rcases h.turns c with ⟨p, hp, hc, hnone, hstone⟩ | hturns
    · exact Or.inl ⟨p, hp, hc, hnone, ne_bot_of_le_ne_bot hstone (h'.later _)⟩
    · rcases h'.turns c with ⟨p, hp, hc, hnone, hstone⟩ | hturns'
      · exact Or.inl ⟨p, hp, hc, le_bot_iff.1 (hnone ▸ h.later _), hstone⟩
      · exact Or.inr (hturns'.trans hturns)

theorem tombstone_eq_bot {recordId : String}
    (h : (db.chatThread.find ConversationMessage.id recordId).any (·.deletedAt.isSome) = false) :
    tombstone db recordId = ⊥ := by
  unfold tombstone
  cases hfind : db.chatThread.find ConversationMessage.id recordId with
  | none => rfl
  | some m =>
    rw [hfind] at h
    have hnone : m.deletedAt = none := by simpa using h
    rw [Option.bind_some, hnone]
    rfl

/-- One message. -/
theorem importConversationMessage_struck {p : PortableConversationMessage} {r : Bool × List ℕ}
    (hp : p ∈ s.conversationMessages) (hs : db.chatThread.Sound ConversationMessage.id)
    (hturns : db.lanes.Schema) (h : db.importConversationMessage p = .ok (r, db')) :
    Struck s db db' := by
  have hsound := (importConversationMessage_ok hs h).2.2.1
  have hstone := tombstone_importConversationMessage hs h
  have hlater : ∀ recordId, tombstone db recordId ≤ tombstone db' recordId := by
    intro recordId
    rw [hstone]
    split
    · exact le_max_left _ _
    · exact le_rfl
  have hmem : p.recordId ∈ s.conversationRecords := List.mem_map_of_mem hp
  obtain ⟨⟨metadata, remote⟩, -, h⟩ := bind_ok h
  obtain ⟨⟨existed, chat⟩, hrecord, h⟩ := bind_ok h
  have haside := Thread.aside_importRecord hs (lawful_conversationRecord p metadata remote) hmem
    hrecord
  dsimp only at h
  split at h
  · cases h
  · next m hfind =>
      obtain ⟨⟨stopped, db₁⟩, hsettle, h⟩ := bind_ok h
      cases h
      rcases settleDeletion_cases hsettle with
        ⟨-, hdb₁⟩ | ⟨hdeleted, turns, next, hdb₁, hsame, hlanes⟩
      · subst hdb₁
        exact ⟨hsound, haside, ⟨hturns.apart, hturns.fresh⟩, hlater,
          ⟨[], by simp, by simp, by simp⟩, fun _ => Or.inr rfl⟩
      · obtain ⟨hschema, helse⟩ := hlanes ⟨hturns.apart, hturns.fresh⟩
        have hburied : tombstone db₁ p.recordId ≠ ⊥ := by
          obtain ⟨time, htime⟩ := Option.isSome_iff_exists.1 hdeleted
          rw [hdb₁, tombstone, hfind, Option.bind_some, htime]
          exact WithBot.coe_ne_bot
        refine ⟨hsound, ?_, hschema, hlater, ⟨[m.id], ?_, ?_, fun n hn => ?_⟩, fun c => ?_⟩
        · rw [hdb₁]
          exact haside
        · simp [hdb₁]
        · simp [hdb₁]
        · obtain ⟨row, hrow, hm⟩ := Option.bind_eq_some_iff.1 hfind
          refine ⟨row, ?_, ?_, ?_, ?_⟩
          · rw [hdb₁]
            exact Table.mem_of_get hrow
          · rw [List.mem_singleton.1 hn, Table.key_of_get hm]
          · rw [Table.key_of_get hrow]
            exact hmem
          · rw [Table.key_of_get hrow]
            exact hburied
        · by_cases hc : c = p.conversationId
          · cases hbecame : existed && !(db.chatThread.find ConversationMessage.id p.recordId).any
                (·.deletedAt.isSome) with
            | false =>
              have hunchanged := hsame hbecame
              exact Or.inr (by simp only [Db.turnsIn, hdb₁, hunchanged])
            | true =>
              refine Or.inl ⟨p, hp, hc.symm, ?_, hburied⟩
              simp only [Bool.and_eq_true, Bool.not_eq_true'] at hbecame
              exact tombstone_eq_bot hbecame.2
          · exact Or.inr (helse c hc)

theorem Struck.of_chat {chat : Thread ConversationMessage}
    (hs : db.chatThread.Sound ConversationMessage.id) (h : Struck s db db')
    (hsound : chat.Sound ConversationMessage.id)
    (haside : db'.chatThread.Aside ConversationMessage.id s.conversationRecords chat)
    (hfind : ∀ recordId, chat.find ConversationMessage.id recordId =
      db'.chatThread.find ConversationMessage.id recordId) :
    Struck s db { db' with chatThread := chat } := by
  have hstone : ∀ recordId, tombstone { db' with chatThread := chat } recordId =
      tombstone db' recordId := fun recordId =>
    congrArg (fun m : Option ConversationMessage => stamp (m.bind (·.deletedAt))) (hfind recordId)
  refine h.trans hs ⟨hsound, haside, ⟨h.schema.apart, h.schema.fresh⟩,
    fun recordId => (hstone recordId).ge, ⟨[], by simp, by simp, by simp⟩, fun _ => Or.inr rfl⟩

theorem importConversationMessages_struck {stopped : List ℕ}
    (hs : db.chatThread.Sound ConversationMessage.id) (hturns : db.lanes.Schema)
    (h : db.importConversationMessages texts s = .ok (stopped, db')) :
    ∃ db₁, Struck s db db₁ ∧ Settling db db₁ ∧ db' = db₁.touched texts s := by
  obtain ⟨messages, horder, h⟩ := bind_ok h
  obtain ⟨⟨imported, db₂⟩, himported, h⟩ := bind_ok h
  obtain ⟨chat, hparents, h⟩ := bind_ok h
  cases h
  obtain ⟨heach, hkeys⟩ := eachWith_ok himported
  have hmem : ∀ p ∈ messages, p ∈ s.conversationMessages := mem_inImportOrder horder
  have hmessages : Struck s db db₂ ∧ Settling db db₂ := by
    refine each_invariant (I := fun d => Struck s db d ∧ Settling db d)
      (fun d p d' hp hd hstep => ?_) ⟨.refl hs hturns, .refl db⟩ heach
    obtain ⟨b, hb⟩ := map_snd_ok hstep
    obtain ⟨hstruck, hsettling⟩ := hd
    exact ⟨hstruck.trans hs
        (importConversationMessage_struck (hmem p hp) hstruck.sound hstruck.schema hb),
      hsettling.trans (importConversationMessage_settling hb)⟩
  obtain ⟨hstruck, hsettling⟩ := hmessages
  have hrecord : ∀ e ∈ imported, e.1.recordId ∈ s.conversationRecords := fun e he =>
    List.mem_map_of_mem (hmem _ (hkeys ▸ List.mem_map_of_mem he))
  obtain ⟨hsound, haside⟩ := Thread.aside_each hstruck.sound (fun d e d' he hd hstep =>
    ⟨hd.of_importParent hstep, Thread.aside_importParent (hrecord e he) hstep⟩) hparents
  have hfind : ∀ recordId, chat.find ConversationMessage.id recordId =
      db₂.chatThread.find ConversationMessage.id recordId := by
    intro recordId
    refine each_invariant (I := fun t : Thread ConversationMessage =>
      t.find ConversationMessage.id recordId =
        db₂.chatThread.find ConversationMessage.id recordId) (fun t e t' _ ht hstep => ?_) rfl
      hparents
    exact (Thread.find_importParent hstep recordId).trans ht
  exact ⟨_, hstruck.of_chat hs hsound haside hfind,
    hsettling.trans ⟨⟨_, _, _, _, _, rfl⟩, fun _ h => h, fun _ h => h⟩, rfl⟩

/-- What is struck is about the messages, the turns and what hangs on messages. -/
theorem Struck.congr {db₁ db₁' : Db} (h : Struck s db₁ db₁')
    (hchat : db₁.chatThread = db.chatThread)
    (hattachments : db₁.attachments = db.attachments)
    (hvisualizations : db₁.visualizations = db.visualizations) (hturns : db₁.turns = db.turns)
    (hchat' : db'.chatThread = db₁'.chatThread) (hattachments' : db'.attachments = db₁'.attachments)
    (hvisualizations' : db'.visualizations = db₁'.visualizations)
    (hturns' : db'.turns = db₁'.turns) (hnext' : db'.nextTurnId = db₁'.nextTurnId) :
    Struck s db db' := by
  have hstone : tombstone db₁ = tombstone db := by
    funext recordId
    rw [tombstone, tombstone, hchat]
  have hstone' : tombstone db' = tombstone db₁' := by
    funext recordId
    rw [tombstone, tombstone, hchat']
  refine ⟨hchat' ▸ h.sound, ?_, ⟨?_, ?_⟩, ?_, ?_, fun c => ?_⟩
  · rw [← hchat, hchat']
    exact h.aside
  · show db'.turns.Pairwise _
    rw [hturns']
    exact h.schema.apart
  · show ∀ t ∈ db'.turns, t.id < db'.nextTurnId
    rw [hturns', hnext']
    exact h.schema.fresh
  · rw [← hstone, hstone']
    exact h.later
  · obtain ⟨gone, ha, hv, hburied⟩ := h.gone
    refine ⟨gone, by rw [hattachments', ha, hattachments], by rw [hvisualizations', hv,
      hvisualizations], fun n hn => ?_⟩
    unfold Buried
    rw [hchat', hstone']
    exact hburied n hn
  · unfold Strikes Db.turnsIn
    rw [← hstone, hstone', hturns', ← hturns]
    exact h.turns c

/-! ## The tables of an import -/

/-- Only rows of the snapshot's records are changed or inserted, table by table; the rows that
hang on messages are as `Struck` has them, and the tables that are not synchronized stay. -/
structure Outside (s : PortableSnapshot) (db db' : Db) : Prop where
  projects : Table.rest (·.id) [s.project.id] db'.projects =
    Table.rest (·.id) [s.project.id] db.projects
  agents : Table.rest (·.id) (s.agents.map (·.id)) db'.agents =
    Table.rest (·.id) (s.agents.map (·.id)) db.agents
  sessions : db.sessions <+: db'.sessions
  conversations : Table.rest (·.id) (s.conversations.map (·.id)) db'.conversations =
    Table.rest (·.id) (s.conversations.map (·.id)) db.conversations
  participants : Table.rest (·.key) (s.participants.map (·.key)) db'.participants =
    Table.rest (·.key) (s.participants.map (·.key)) db.participants
  tasks : Table.rest (·.id) (s.tasks.map (·.id)) db'.tasks =
    Table.rest (·.id) (s.tasks.map (·.id)) db.tasks
  dependencies : Table.rest (fun d => d) s.taskDependencies db'.dependencies =
    Table.rest (fun d => d) s.taskDependencies db.dependencies
  taskMessages : db.taskThread.Aside TaskMessage.id s.taskRecords db'.taskThread
  workflows : Table.rest (·.id) (s.workflows.map (·.id)) db'.workflows =
    Table.rest (·.id) (s.workflows.map (·.id)) db.workflows
  projectWorkflows :
    Table.rest (fun r => r) (s.workflows.map fun w => (s.project.id, w.id)) db'.projectWorkflows =
      Table.rest (fun r => r) (s.workflows.map fun w => (s.project.id, w.id)) db.projectWorkflows
  notes : Table.rest (·.id) (s.memoryNotes.map (·.id)) db'.notes =
    Table.rest (·.id) (s.memoryNotes.map (·.id)) db.notes
  tags : Table.rest (·.noteId) (s.memoryNotes.map (·.id)) db'.tags =
    Table.rest (·.noteId) (s.memoryNotes.map (·.id)) db.tags
  embeddings : Table.rest (·.noteId) (s.memoryNotes.map (·.id)) db'.embeddings =
    Table.rest (·.noteId) (s.memoryNotes.map (·.id)) db.embeddings
  links : Table.rest (·.key) (s.memoryLinks.map (·.key)) db'.links =
    Table.rest (·.key) (s.memoryLinks.map (·.key)) db.links
  messages : Struck s db db'
  attempts : db'.attempts = db.attempts
  instances : db'.instances = db.instances
  connectCommands : db'.connectCommands = db.connectCommands

theorem insertSession_isPrefix (rows : List LogicalSession) (p : PortableAgent) :
    rows <+: insertSession rows p := by
  unfold insertSession
  split
  · exact List.prefix_refl rows
  · exact List.prefix_append rows _

theorem foldl_insertSession_isPrefix (agents : List PortableAgent) (rows : List LogicalSession) :
    rows <+: agents.foldl insertSession rows := by
  induction agents generalizing rows with
  | nil => exact List.prefix_refl rows
  | cons p agents ih => exact (insertSession_isPrefix rows p).trans (ih _)

theorem rest_writeTasks {projectId : String} {ids : List String} {tasks : List PortableTask}
    (hids : ∀ t ∈ tasks, t.id ∈ ids) (rows : List Task) :
    Table.rest (·.id) ids (writeTasks projectId tasks rows) = Table.rest (·.id) ids rows := by
  unfold writeTasks
  have hkey : ∀ (t : PortableTask) (r : Task), (setParent t r).id = r.id := fun _ _ => rfl
  rw [Table.rest_modifyAll hkey hids, Table.rest_upsertAll (lawful_task projectId) hids]

theorem importWorkflows_rest (h : db.importWorkflows texts s = .ok db') :
    Table.rest (·.id) (s.workflows.map (·.id)) db'.workflows =
        Table.rest (·.id) (s.workflows.map (·.id)) db.workflows ∧
      Table.rest (fun r => r) (s.workflows.map fun w => (s.project.id, w.id))
          db'.projectWorkflows =
        Table.rest (fun r => r) (s.workflows.map fun w => (s.project.id, w.id))
          db.projectWorkflows := by
  refine each_invariant (I := fun d : Db =>
    Table.rest (·.id) (s.workflows.map (·.id)) d.workflows =
        Table.rest (·.id) (s.workflows.map (·.id)) db.workflows ∧
      Table.rest (fun r => r) (s.workflows.map fun w => (s.project.id, w.id)) d.projectWorkflows =
        Table.rest (fun r => r) (s.workflows.map fun w => (s.project.id, w.id))
          db.projectWorkflows) (fun d w d' hw hd hstep => ?_) ⟨rfl, rfl⟩ h
  obtain ⟨b, rfl⟩ := importWorkflow_ok hstep
  refine ⟨?_, ?_⟩
  · rw [← hd.1]
    exact Table.rest_upsert (List.mem_map_of_mem hw) (id_reviseWorkflow b w) rfl _
  · rw [← hd.2]
    dsimp only
    split
    · rfl
    · refine Table.rest_append_of_mem fun r hr => ?_
      rw [List.mem_singleton.1 hr]
      exact List.mem_map_of_mem hw

/-- **An import writes the rows of its snapshot and leaves the others alone.** -/
theorem importTransaction_outside (hs : db.Schema) (hturns : db.lanes.Schema)
    (hvalid : s.Valid texts) {allow : Bool} {stopped : List ℕ}
    (h : db.importTransaction texts s allow = .ok (stopped, db')) : Outside s db db' := by
  obtain ⟨st⟩ := importTransaction_stages h
  have hthird : st.third = st.second.writeMemory texts s :=
    Except.ok.inj (st.importMemory.symm.trans (importMemory_eq hvalid _))
  have hfirst := st.first_eq
  have hchat : st.third.chatThread = db.chatThread := by
    rw [hthird, st.second_eq, hfirst]
    rfl
  have hlanes : st.third.lanes.Schema := by
    refine ⟨?_, ?_⟩ <;> rw [hthird, st.second_eq, hfirst]
    · exact hturns.apart
    · exact hturns.fresh
  obtain ⟨db₁, hstruck, ⟨⟨_, _, _, _, _, hdb₁⟩, -, -⟩, hdb'⟩ :=
    importConversationMessages_struck (hchat ▸ hs.chatThread) hlanes st.importMessages
  have hlate : ∀ {τ : Type} (f : Db → τ),
      (∀ d chat turns next attachments visualizations conversations, f { d with
        chatThread := chat
        turns := turns
        nextTurnId := next
        attachments := attachments
        visualizations := visualizations
        conversations := conversations } = f d) →
      f db' = f (st.second.writeMemory texts s) := by
    intro τ f hf
    calc f db' = f (db₁.touched texts s) := congrArg f hdb'
      _ = f st.third := by
        rw [hdb₁]
        exact hf st.third _ _ _ _ _ _
      _ = f (st.second.writeMemory texts s) := congrArg f hthird
  have htasks : ∀ t ∈ st.tasks, t.id ∈ s.tasks.map (·.id) := fun t ht =>
    normalizeAll_ids st.normal ▸ List.mem_map_of_mem ht
  obtain ⟨hworkflows, hlinks⟩ := importWorkflows_rest st.importWorkflows
  constructor
  case projects =>
    rw [hlate (·.projects) (fun _ _ _ _ _ _ _ => rfl), Db.writeMemory, st.second_eq, hfirst]
    have hkey : ∀ r, (rewriteProject s.project r).id = r.id := fun _ => rfl
    have hnew : (newProject s.project).id = s.project.id := rfl
    exact Table.rest_upsert (List.mem_singleton_self _) hkey hnew db.projects
  case agents =>
    rw [hlate (·.agents) (fun _ _ _ _ _ _ _ => rfl), Db.writeMemory, st.second_eq, hfirst]
    exact Table.rest_upsertAll (lawful_agent _ _) (fun _ => List.mem_map_of_mem) db.agents
  case sessions =>
    rw [hlate (·.sessions) (fun _ _ _ _ _ _ _ => rfl), Db.writeMemory, st.second_eq, hfirst]
    exact foldl_insertSession_isPrefix s.agents db.sessions
  case conversations =>
    have hkey : ∀ (c : PortableConversation) (r : Conversation),
        (Db.touch (db₁.lastMessageAt texts c.id) r).id = r.id := fun _ _ => rfl
    have hrest : Table.rest (·.id) (s.conversations.map (·.id))
        (db₁.touched texts s).conversations =
          Table.rest (·.id) (s.conversations.map (·.id)) db₁.conversations :=
      Table.rest_modifyAll hkey (fun _ => List.mem_map_of_mem) _
    rw [hdb']
    refine hrest.trans ?_
    rw [hdb₁, hthird, st.second_eq, hfirst]
    exact Table.rest_upsertAll (lawful_conversation _) (fun _ => List.mem_map_of_mem)
      db.conversations
  case participants =>
    rw [hlate (·.participants) (fun _ _ _ _ _ _ _ => rfl), Db.writeMemory, st.second_eq, hfirst]
    exact Table.rest_upsertAll (lawful_insert (·.key)) (fun _ => List.mem_map_of_mem)
      db.participants
  case tasks =>
    rw [hlate (·.tasks) (fun _ _ _ _ _ _ _ => rfl), Db.writeMemory, st.second_eq, hfirst]
    exact rest_writeTasks htasks db.tasks
  case dependencies =>
    rw [hlate (·.dependencies) (fun _ _ _ _ _ _ _ => rfl), Db.writeMemory, st.second_eq, hfirst]
    exact Table.rest_upsertAll (lawful_insert fun d => d) (fun _ hd => hd) db.dependencies
  case taskMessages =>
    rw [hlate (·.taskThread) (fun _ _ _ _ _ _ _ => rfl), Db.writeMemory, st.second_eq]
    have hthread : st.first.taskThread = db.taskThread := by
      rw [hfirst]
      rfl
    rw [← hthread]
    have hmessages := importTaskMessages_aside (hthread ▸ hs.taskThread) st.taskMessages
    exact hmessages
  case workflows =>
    rw [hlate (·.workflows) (fun _ _ _ _ _ _ _ => rfl), Db.writeMemory]
    refine hworkflows.trans ?_
    rw [hfirst]
    rfl
  case projectWorkflows =>
    rw [hlate (·.projectWorkflows) (fun _ _ _ _ _ _ _ => rfl), Db.writeMemory]
    refine hlinks.trans ?_
    rw [hfirst]
    rfl
  case notes =>
    rw [hlate (·.notes) (fun _ _ _ _ _ _ _ => rfl), Db.writeMemory, st.second_eq, hfirst]
    exact Table.rest_upsertAll (lawful_note texts _) (fun _ => List.mem_map_of_mem) db.notes
  case tags =>
    rw [hlate (·.tags) (fun _ _ _ _ _ _ _ => rfl), Db.writeMemory, st.second_eq, hfirst]
    exact Table.rest_replaceAll tagsOf_noteId (fun _ => List.mem_map_of_mem) db.tags
  case embeddings =>
    rw [hlate (·.embeddings) (fun _ _ _ _ _ _ _ => rfl), Db.writeMemory, st.second_eq, hfirst]
    exact Table.rest_replaceAll embeddingsOf_noteId (fun _ => List.mem_map_of_mem) db.embeddings
  case links =>
    rw [hlate (·.links) (fun _ _ _ _ _ _ _ => rfl), Db.writeMemory, st.second_eq, hfirst]
    exact Table.rest_upsertAll lawful_link (fun _ => List.mem_map_of_mem) db.links
  case messages =>
    rw [hdb']
    refine hstruck.congr hchat ?_ ?_ ?_ rfl rfl rfl rfl rfl <;>
      rw [hthird, st.second_eq, hfirst] <;> rfl
  case attempts =>
    rw [hlate (·.attempts) (fun _ _ _ _ _ _ _ => rfl), Db.writeMemory, st.second_eq, hfirst]
    rfl
  case instances =>
    rw [hlate (·.instances) (fun _ _ _ _ _ _ _ => rfl), Db.writeMemory, st.second_eq, hfirst]
    rfl
  case connectCommands =>
    rw [hlate (·.connectCommands) (fun _ _ _ _ _ _ _ => rfl), Db.writeMemory, st.second_eq,
      hfirst]
    rfl

end XpressClaw.Sync
