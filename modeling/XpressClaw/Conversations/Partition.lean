import XpressClaw.Conversations.Triggers

/-!
# What the prompts of an agent show

* `Db.Shows` — what a prompt shows when some were delivered before it; `shows_of_prompt` says that
  it is what a worker builds.
* `Followed` — the prompts that were delivered, and the workers; `Followed.step` is one step of a
  run.
* `prompts_partition` — **the prompts of the completed turns show every message once**, and what
  every prompt that is built shows.
-/

namespace XpressClaw.Conversations

open Lib

/-! ## Sessions -/

namespace SessionDb

variable {c a : String} {s s' : SessionDb}

/-- The agent's row is kept, with a native session if there was one. -/
def KeepsSession (c a : String) (s s' : SessionDb) : Prop :=
  ∀ x, s.session c a = some x → ∃ y, s'.session c a = some y ∧ (x.isSome → y.isSome)

theorem KeepsSession.of_eq (h : s'.sessions = s.sessions) : KeepsSession c a s s' := by
  intro x hx
  refine ⟨x, ?_, id⟩
  rw [session, h]
  exact hx

theorem KeepsSession.trans {s'' : SessionDb} (h : KeepsSession c a s s')
    (h' : KeepsSession c a s' s'') : KeepsSession c a s s'' := by
  intro x hx
  obtain ⟨y, hy, hxy⟩ := h x hx
  obtain ⟨z, hz, hyz⟩ := h' y hy
  exact ⟨z, hz, hyz ∘ hxy⟩

theorem lift_keeps {α : Type} {tx : Tx α} {r : α} (h : SessionTx.lift tx s = .ok (r, s')) :
    KeepsSession c a s s' := by
  obtain ⟨⟨_, db⟩, -, h⟩ := bind_ok h
  cases h
  exact .of_eq rfl

theorem upsertSession_keeps (c' a' : String) (s : SessionDb) :
    KeepsSession c a s (s.upsertSession c' a') := by
  unfold upsertSession
  split
  · exact .of_eq rfl
  · intro x hx
    obtain ⟨row, hrow, hnative⟩ := Option.map_eq_some_iff.1 hx
    refine ⟨x, ?_, id⟩
    rw [session, List.find?_append, hrow]
    exact congrArg some hnative

theorem session_updateSessions (w : AgentSession → Bool) (set : Option String → Option String)
    (s : SessionDb) {row : AgentSession}
    (h : s.sessions.find? (fun x => x.conversationId = c && x.agentId = a) = some row) :
    (s.updateSessions w set).session c a =
      some (if w row then set row.nativeSessionId else row.nativeSessionId) := by
  have hsame : (fun x : AgentSession => decide (x.conversationId = c) && decide (x.agentId = a)) ∘
      (fun x => if w x then { x with nativeSessionId := set x.nativeSessionId } else x) =
      fun x => decide (x.conversationId = c) && decide (x.agentId = a) := by
    funext x
    by_cases hw : w x = true
    · simp [hw]
    · simp [hw]
  rw [session, updateSessions, List.find?_map, hsame, h]
  by_cases hw : w row = true
  · simp [hw]
  · simp [hw]

theorem storeNativeSession_keeps (c' a' : String) (native : Option String) (s : SessionDb) :
    KeepsSession c a s (s.storeNativeSession c' a' native) := by
  intro x hx
  obtain ⟨row, hrow, hnative⟩ := Option.map_eq_some_iff.1 hx
  refine ⟨_, session_updateSessions _ _ s hrow, fun hsome => ?_⟩
  rw [← hnative] at hsome
  split
  · obtain ⟨n, hn⟩ := Option.isSome_iff_exists.1 hsome
    rw [hn]
    cases native <;> rfl
  · exact hsome

theorem session_storeNativeSession (native : String) (s : SessionDb) {x : Option String}
    (h : s.session c a = some x) :
    (s.storeNativeSession c a (some native)).session c a = some (some native) := by
  obtain ⟨row, hrow, -⟩ := Option.map_eq_some_iff.1 h
  rw [storeNativeSession, session_updateSessions _ _ s hrow, if_pos (List.find?_some hrow)]
  rfl

theorem enqueueInTransaction_keeps {c' a' : String} {m : ℕ} {r : Bool}
    (h : enqueueInTransaction c' a' m s = .ok (r, s')) : KeepsSession c a s s' := by
  obtain ⟨⟨inserted, s₁⟩, hlift, h⟩ := bind_ok h
  cases h
  refine (lift_keeps hlift).trans ?_
  split
  · exact upsertSession_keeps c' a' s₁
  · exact .of_eq rfl

theorem enqueueAll_keeps {c' : String} {m : ℕ} {agents r : List String}
    (h : enqueueAll c' m agents s = .ok (r, s')) : KeepsSession c a s s' := by
  induction agents generalizing s r with
  | nil =>
    cases h
    exact .of_eq rfl
  | cons b agents ih =>
    obtain ⟨⟨_, s₁⟩, h1, h⟩ := bind_ok h
    obtain ⟨⟨_, s₂⟩, h2, h⟩ := bind_ok h
    cases h
    exact (enqueueInTransaction_keeps h1).trans (ih h2)

theorem enqueueForMessage_keeps {c' st sender text : String} {m : ℕ} {r : List String}
    (h : enqueueForMessage c' m st sender text s = .ok (r, s')) : KeepsSession c a s s' := by
  unfold enqueueForMessage at h
  split at h
  · cases h
    exact .of_eq rfl
  · exact enqueueAll_keeps h

theorem sendRoutedMessage_keeps {c' : String} {msg : SendMessage} {target : Option String}
    {r : ℕ × List String} (h : sendRoutedMessage c' msg target s = .ok (r, s')) :
    KeepsSession c a s s' := by
  obtain ⟨⟨_, s₁⟩, h1, h⟩ := bind_ok h
  obtain ⟨⟨_, s₂⟩, h2, h⟩ := bind_ok h
  cases h
  exact (lift_keeps h1).trans (enqueueForMessage_keeps h2)

theorem sendAgentRoutedMessage_keeps {c' : String} {msg : SendMessage} {task : Option String}
    {r : ℕ × List String} (h : sendAgentRoutedMessage c' msg task s = .ok (r, s')) :
    KeepsSession c a s s' := by
  unfold sendAgentRoutedMessage at h
  split at h
  · cases h
  split at h
  · cases h
  obtain ⟨_, -, h⟩ := bind_ok h
  exact sendRoutedMessage_keeps h

theorem sendTargetedRoutedMessage_keeps {c' target : String} {msg : SendMessage}
    {r : ℕ × List String} (h : sendTargetedRoutedMessage c' target msg s = .ok (r, s')) :
    KeepsSession c a s s' := by
  unfold sendTargetedRoutedMessage at h
  split at h
  · cases h
  obtain ⟨⟨_, s₁⟩, h1, h⟩ := bind_ok h
  obtain ⟨⟨_, s₂⟩, h2, h⟩ := bind_ok h
  cases h
  exact (lift_keeps h1).trans (enqueueInTransaction_keeps h2)

theorem finishInTransaction_keeps {turn : ConversationTurn} {status : TurnStatus}
    {native : Option String} {m : Option ℕ} {e : Option String} {r : Bool}
    (h : finishInTransaction turn status native m e s = .ok (r, s')) : KeepsSession c a s s' := by
  obtain ⟨⟨updated, s₁⟩, hlift, h⟩ := bind_ok h
  cases h
  refine (lift_keeps hlift).trans ?_
  split
  · exact storeNativeSession_keeps _ _ _ s₁
  · exact .of_eq rfl

theorem db_of_ok {α : Type} {f : SessionTx α} {g : Tx α} {r : α} (h : Simulates f g)
    (hf : f s = .ok (r, s')) : g s.db = .ok (r, s'.db) := by
  rw [← h s, hf]
  rfl

theorem eq_of_unpublished {turn : ConversationTurn} {native : String} {msg : SendMessage}
    {target : Option String} (h : completeWithMessage turn native msg target s = .ok (none, s')) :
    s' = s := by
  unfold completeWithMessage at h
  split at h
  · cases h
    rfl
  · obtain ⟨_, -, h⟩ := bind_ok h
    obtain ⟨_, -, h⟩ := bind_ok h
    obtain ⟨_, -, h⟩ := bind_ok h
    cases h

/-- Publishing a response stores its native session. -/
theorem completeWithMessage_keeps {turn : ConversationTurn} {native : String} {msg : SendMessage}
    {target : Option String} {stored : ConversationMessage} (hs : s.db.Schema)
    (hturn : s.db.Runs turn)
    (h : completeWithMessage turn native msg target s = .ok (some stored, s')) :
    KeepsSession c a s s' ∧ ∀ x, s.session turn.conversationId turn.agentId = some x →
      s'.session turn.conversationId turn.agentId = some (some native) := by
  unfold completeWithMessage at h
  split at h
  · cases h
  obtain ⟨⟨stored, s₁⟩, hinsert, h⟩ := bind_ok h
  obtain ⟨⟨_, s₂⟩, hroute, h⟩ := bind_ok h
  obtain ⟨⟨_, s₃⟩, hfinish, h⟩ := bind_ok h
  cases h
  refine ⟨(lift_keeps hinsert).trans ((enqueueForMessage_keeps hroute).trans
    (finishInTransaction_keeps hfinish)), fun x hx => ?_⟩
  obtain ⟨y, hy, -⟩ := (lift_keeps hinsert).trans (enqueueForMessage_keeps hroute) x hx
  have hruns : s₂.db.Runs turn :=
    (Db.route_extends hs (db_of_ok (.lift _) hinsert)
      (db_of_ok (enqueueForMessage_db _ _ _ _ _) hroute)).2 turn hturn
  obtain ⟨⟨updated, s₄⟩, hlift, hfinish⟩ := bind_ok hfinish
  have htrue : updated = true := Db.finish_eq_true hruns (db_of_ok (.lift _) hlift)
  obtain ⟨z, hz, -⟩ := lift_keeps hlift y hy
  cases hfinish
  rw [htrue, if_pos rfl]
  exact session_storeNativeSession native s₄ hz

end SessionDb

/-! ## Prompts -/

/-- The prompt is for the agent in the conversation. -/
def Prompt.isOf (c a : String) (p : Prompt) : Bool :=
  p.turn.conversationId = c && p.turn.agentId = a

/-- The trigger of the last prompt. -/
def lastTrigger (prompts : List Prompt) : ℕ := (prompts.getLast?.map Prompt.trigger).getD 0

/-- What a prompt shows when some were delivered before it. -/
structure Db.Shows (db : Db) (c a : String) (before : List Prompt) (p : Prompt) : Prop where
  messages : p.messages =
    (newest (·.id) 80 (window (·.id) (lastTrigger before) p.trigger (db.visible c))).filter
      fun m => p.sessionStart = .new || !m.ownOf a
  newer : lastTrigger before < p.trigger
  foreign : db.Foreign c a p.trigger
  resumed : before ≠ [] → p.sessionStart ≠ .new

section Prompts

variable {db db' : Db} {c a : String} {last : ℕ} {before : List Prompt} {p : Prompt}

theorem Db.promptMessages_eq {turn : ConversationTurn} {k : ℕ} (sessionStart : AcpSessionStart)
    (previous : Option ℕ) (hk : turn.triggerMessageId = some k) :
    db.promptMessages turn sessionStart previous =
      (newest (·.id) 80 (window (·.id) (previous.getD 0) k (db.visible turn.conversationId))).filter
        fun m => sessionStart = .new || !m.ownOf turn.agentId := by
  unfold Db.promptMessages
  rw [hk]
  cases previous <;> rfl

theorem getD_max? {xs : List ℕ} {n : ℕ} (hle : ∀ x ∈ xs, x ≤ n) (hmem : n = 0 ∨ n ∈ xs) :
    xs.max?.getD 0 = n := by
  cases h : xs.max? with
  | none =>
    rw [List.max?_eq_none_iff] at h
    rcases hmem with rfl | hmem
    · rfl
    · rw [h] at hmem
      cases hmem
  | some m =>
    obtain ⟨hm, hmax⟩ := List.max?_eq_some_iff.1 h
    rcases hmem with rfl | hmem
    · exact Nat.le_zero.1 (hle m hm)
    · exact le_antisymm (hle m hm) (hmax n hmem)

/-- A resumed session goes on behind the last completed trigger. -/
theorem Db.AnsweredUpTo.boundary (h : db.AnsweredUpTo c a last) {k : ℕ} (hk : last < k) :
    (db.latestPromptBoundaryBefore c a k true).getD 0 = last := by
  unfold Db.latestPromptBoundaryBefore
  refine getD_max? ?_ ?_
  · intro x hx
    simp only [List.mem_filter, List.mem_filterMap, Bool.true_and, Bool.or_eq_true,
      decide_eq_true_eq] at hx
    obtain ⟨⟨t, ⟨ht, hover⟩, hx⟩, -⟩ := hx
    rcases h.sound t ht with ⟨hact, -⟩ | ⟨-, j, hj, hle⟩
    · rcases hover with (hover | hover) | hover
      · rw [hover] at hact
        cases hact
      · rw [hover] at hact
        cases hact
      · rw [hover] at hact
        cases hact
    · rw [hx] at hj
      cases hj
      exact hle
  · refine h.reached.imp id fun ⟨t, ht, hdone, htrigger⟩ => ?_
    simp only [List.mem_filter, List.mem_filterMap, Bool.true_and, Bool.or_eq_true,
      decide_eq_true_eq]
    exact ⟨⟨t, ⟨ht, Or.inr hdone⟩, htrigger⟩, hk⟩

theorem Db.AnsweredUpTo.boundary_new (h : db.AnsweredUpTo c a last) (k : ℕ) :
    db.latestPromptBoundaryBefore c a k false = none := by
  unfold Db.latestPromptBoundaryBefore
  have hnone : (db.turnsOf c a).filter (fun t => t.status = .cancelled || t.status = .failed ||
      (false && t.status = .completed)) = [] := by
    rw [List.filter_eq_nil_iff]
    intro t ht
    rcases h.sound t ht with ⟨hact, -⟩ | ⟨hdone, -⟩
    · rcases TurnStatus.active_iff.1 hact with hs | hs <;> simp [hs]
    · simp [hdone]
  rw [hnone]
  rfl

/-- **A prompt that is built** shows what has come since the last one that was delivered. -/
theorem shows_of_prompt {captions : ConversationTurn → Captions} {s : SessionDb}
    {turn : ConversationTurn} (h : s.db.AnsweredUpTo c a (lastTrigger before))
    (hretained : before ≠ [] → ∃ n, s.session c a = some (some n)) (hruns : s.db.Runs turn)
    (hc : turn.conversationId = c) (ha : turn.agentId = a) (hp : s.prompt captions turn = some p) :
    p.turn = turn ∧ s.db.Shows c a before p := by
  obtain ⟨htrigger, hlt, hforeign⟩ := h.of_runs hruns hc ha
  obtain ⟨native, hnative, rfl⟩ := Option.map_eq_some_iff.1 hp
  refine ⟨rfl, ?_, hlt, hforeign, ?_⟩
  · show s.db.promptMessages turn _ _ = _
    rw [Db.promptMessages_eq _ _ htrigger, hc, ha]
    have hfrom : (conversationPromptBoundary s.db turn (native.elim .new .resume)).getD 0 =
        lastTrigger before := by
      rw [conversationPromptBoundary, htrigger, Option.bind_some, hc, ha]
      cases native with
      | some n => exact h.boundary hlt
      | none =>
        have hfirst : before = [] := by
          by_contra hne
          obtain ⟨n, hn⟩ := hretained hne
          rw [hc, ha, hn] at hnative
          cases hnative
        show (s.db.latestPromptBoundaryBefore c a turn.trigger false).getD 0 = _
        rw [h.boundary_new, hfirst]
        rfl
    rw [hfrom]
    rfl
  · intro hne
    obtain ⟨n, hn⟩ := hretained hne
    rw [hc, ha, hn] at hnative
    cases hnative
    exact AcpSessionStart.noConfusion

/-- Later messages do not change what a prompt shows. -/
theorem Db.Shows.extends (hn : db.Numbered) (h : db.Shows c a before p) (he : db.Extends db') :
    db'.Shows c a before p := by
  obtain ⟨more, hmore, hnew⟩ := he
  have hwindow : window (·.id) (lastTrigger before) p.trigger (db'.visible c) =
      window (·.id) (lastTrigger before) p.trigger (db.visible c) := by
    rw [Db.visible, hmore, List.filter_append]
    refine window_append_later fun m hm => ?_
    exact (h.foreign.lt hn).trans_le (hnew m (List.mem_of_mem_filter hm))
  exact
    { messages := by rw [hwindow, h.messages]
      newer := h.newer
      foreign := h.foreign.of_messages (by rw [hmore]; exact List.subset_append_left _ _)
      resumed := h.resumed }

end Prompts

/-! ## Runs -/

theorem SessionDb.step_cases (s : SessionDb) (call : Call) :
    (s.step call = s ∧ s.reply call = none) ∨
      ∃ r, call.exec s = .ok (r, s.step call) ∧ s.reply call = some r := by
  unfold SessionDb.step SessionDb.reply
  cases h : call.exec s with
  | error e => exact Or.inl ⟨rfl, rfl⟩
  | ok r => exact Or.inr ⟨r.1, rfl, rfl⟩

/-- The workers and the prompts that were delivered to the agent. -/
structure Followed (c a : String) (w : World) (done : List Prompt) : Prop where
  answered : w.store.db.AnsweredUpTo c a (lastTrigger done)
  retained : done ≠ [] → ∃ n, w.store.session c a = some (some n)
  running : ∀ k ∈ w.workers, w.store.db.Runs k.turn
  built : ∀ k ∈ w.workers, ∀ p, k.prompt = some p → p.turn = k.turn ∧
    (k.turn.conversationId = c → k.turn.agentId = a →
      w.store.db.Shows c a done p ∧ ∃ x, w.store.session c a = some x)
  delivered : ∀ before p after, done = before ++ p :: after →
    p.isOf c a = true ∧ w.store.db.Shows c a before p

section Runs

variable {captions : ConversationTurn → Captions} {c a : String} {w : World} {done : List Prompt}

/-- A step that adds messages, keeps the sessions, and gives no worker a prompt. -/
theorem Followed.of_step {s' : SessionDb} {workers : List Worker} (h : Followed c a w done)
    (hanswered : s'.db.AnsweredUpTo c a (lastTrigger done)) (hextends : w.store.db.Extends s'.db)
    (hkeeps : SessionDb.KeepsSession c a w.store s')
    (hworkers : ∀ k ∈ workers, s'.db.Runs k.turn ∧ (k.prompt = none ∨ k ∈ w.workers)) :
    Followed c a ⟨s', workers⟩ done where
  answered := hanswered
  retained hne := by
    obtain ⟨n, hn⟩ := h.retained hne
    obtain ⟨y, hy, hsome⟩ := hkeeps _ hn
    obtain ⟨n', rfl⟩ := Option.isSome_iff_exists.1 (hsome rfl)
    exact ⟨n', hy⟩
  running k hk := (hworkers k hk).1
  built k hk p hp := by
    rcases (hworkers k hk).2 with hnone | hold
    · rw [hnone] at hp
      cases hp
    · obtain ⟨hturn, hof⟩ := h.built k hold p hp
      refine ⟨hturn, fun hc ha => ?_⟩
      obtain ⟨hshows, x, hx⟩ := hof hc ha
      obtain ⟨y, hy, -⟩ := hkeeps x hx
      exact ⟨hshows.extends h.answered.numbered hextends, y, hy⟩
  delivered before p after heq := by
    obtain ⟨hof, hshows⟩ := h.delivered before p after heq
    exact ⟨hof, hshows.extends h.answered.numbered hextends⟩

theorem Followed.of_store {s' : SessionDb} (h : Followed c a w done)
    (hanswered : s'.db.AnsweredUpTo c a (lastTrigger done))
    (hdb : w.store.db.Extends s'.db ∧ w.store.db.GoesOn s'.db)
    (hkeeps : SessionDb.KeepsSession c a w.store s') : Followed c a { w with store := s' } done :=
  h.of_step hanswered hdb.1 hkeeps fun k hk => ⟨hdb.2 _ (h.running k hk), Or.inr hk⟩

theorem Followed.sendRouted (h : Followed c a w done) (c' : String) (msg : SendMessage)
    (target : Option String) :
    Followed c a (w.step captions (.sendRouted c' msg target)) done := by
  rcases w.store.step_cases (.op (.sendRouted c' msg target) "") with ⟨heq, -⟩ | ⟨_, hok, -⟩
  · rw [World.step, heq]
    exact h
  · obtain ⟨⟨r, s'⟩, hsend, hok⟩ := bind_ok hok
    obtain ⟨-, heq⟩ := Prod.mk.inj (Except.ok.inj hok)
    rw [World.step, ← heq]
    have hdb := SessionDb.db_of_ok (SessionDb.sendRoutedMessage_db c' msg target) hsend
    obtain ⟨_, _, _, hinsert, hroute⟩ := Db.sendRoutedMessage_eq hdb
    exact h.of_store (Db.sendRouted_answered h.answered hdb)
      (Db.route_extends h.answered.schema hinsert hroute) (SessionDb.sendRoutedMessage_keeps hsend)

theorem Followed.sendAgentRouted (h : Followed c a w done) (c' : String) (msg : SendMessage)
    (task : Option String) :
    Followed c a (w.step captions (.sendAgentRouted c' msg task)) done := by
  rcases w.store.step_cases (.op (.sendAgentRouted c' msg task) "") with ⟨heq, -⟩ | ⟨_, hok, -⟩
  · rw [World.step, heq]
    exact h
  · obtain ⟨⟨r, s'⟩, hsend, hok⟩ := bind_ok hok
    obtain ⟨-, heq⟩ := Prod.mk.inj (Except.ok.inj hok)
    rw [World.step, ← heq]
    have hdb := Db.sendAgentRoutedMessage_eq
      (SessionDb.db_of_ok (SessionDb.sendAgentRoutedMessage_db c' msg task) hsend)
    obtain ⟨_, _, _, hinsert, hroute⟩ := Db.sendRoutedMessage_eq hdb
    exact h.of_store (Db.sendRouted_answered h.answered hdb)
      (Db.route_extends h.answered.schema hinsert hroute)
      (SessionDb.sendAgentRoutedMessage_keeps hsend)

theorem Followed.sendTargeted (h : Followed c a w done) {c' target : String} {msg : SendMessage}
    (hothers : (Event.sendTargeted c' target msg).FromOthers) :
    Followed c a (w.step captions (.sendTargeted c' target msg)) done := by
  rcases w.store.step_cases (.op (.sendTargeted c' target msg) "") with ⟨heq, -⟩ | ⟨_, hok, -⟩
  · rw [World.step, heq]
    exact h
  · obtain ⟨⟨r, s'⟩, hsend, hok⟩ := bind_ok hok
    obtain ⟨-, heq⟩ := Prod.mk.inj (Except.ok.inj hok)
    rw [World.step, ← heq]
    have hdb := SessionDb.db_of_ok (SessionDb.sendTargetedRoutedMessage_db c' target msg) hsend
    exact h.of_store (Db.sendTargeted_answered h.answered hothers hdb)
      (Db.sendTargeted_extends h.answered.schema hdb)
      (SessionDb.sendTargetedRoutedMessage_keeps hsend)

theorem Followed.sendStructured (h : Followed c a w done) (c' : String) (msg : SendMessage)
    (target : Option String) :
    Followed c a (w.step captions (.sendStructured c' msg target)) done := by
  rw [World.step, SessionDb.sendStructured]
  split
  · rename_i r s' hlift
    have hinsert := Db.insertStructuredMessage_eq (SessionDb.db_of_ok (.lift _) hlift)
    exact h.of_store (Db.insert_answered h.answered hinsert) (Db.insertMessage_extends hinsert)
      (SessionDb.lift_keeps hlift)
  · exact h

theorem Followed.tick (h : Followed c a w done) (now : ℕ) :
    Followed c a (w.step captions (.tick now)) done := by
  refine h.of_store ?_ ⟨.of_eq rfl, fun t ht => ht⟩ (.of_eq rfl)
  exact h.answered.of_rows
    (.of_turns_eq rfl rfl fun hn => ⟨hn.pos, hn.messages, hn.triggers⟩) rfl rfl h.answered.sound
    fun t ht _ => (Db.mem_turnsOf.1 ht).1

theorem Followed.claimNext (h : Followed c a w done) :
    Followed c a (w.step captions .claimNext) done := by
  have hdb : (w.store.step (.op .claimNext "")).db = w.store.db.claimNext.2 := rfl
  refine h.of_step ?_ (.of_eq ?_) (.of_eq rfl) ?_
  · rw [hdb]
    exact Db.claimNext_answered h.answered
  · rw [hdb]
    rcases Db.claimNext_cases w.store.db with hclaim | ⟨next, -, -, hclaim⟩
    · rw [hclaim]
      rfl
    · rw [hclaim]
      rfl
  · intro k hk
    rw [hdb]
    rcases List.mem_append.1 hk with hk | hk
    · exact ⟨Db.claimNext_goesOn _ (h.running k hk), Or.inr hk⟩
    · obtain ⟨t, ht, rfl⟩ := List.mem_map.1 hk
      have hclaimed : w.store.db.claimNext.1 = some t := Option.mem_toList.1 ht
      exact ⟨Db.runs_of_claimed h.answered.schema hclaimed, Or.inl rfl⟩

theorem Followed.restart (h : Followed c a w done) :
    Followed c a (w.step captions .restart) done := by
  refine h.of_step (Db.recover_answered h.answered) (.of_eq rfl) (.of_eq rfl) fun k hk => ?_
  cases hk

theorem mem_of_workerOf {i : ℕ} {k : Worker} (h : w.workerOf i = some k) :
    k ∈ w.workers ∧ k.turn.id = i :=
  ⟨List.mem_of_find?_eq_some h, by simpa using List.find?_some h⟩

theorem built_eq_some {i : ℕ} {p : Prompt} (h : w.built captions (.prompt i) = some p) :
    ∃ k, w.workerOf i = some k ∧ w.store.prompt captions k.turn = some p := by
  obtain ⟨k, hk, h⟩ := Option.bind_eq_some_iff.1 h
  rw [Option.ite_none_right_eq_some] at h
  exact ⟨k, hk, h.2⟩

/-- **Every prompt that is built for the agent** shows what has come since the last one that was
delivered. -/
theorem Followed.shows_built (h : Followed c a w done) {e : Event} {p : Prompt}
    (hp : w.built captions e = some p) (hof : p.isOf c a = true) : w.store.db.Shows c a done p := by
  cases e with
  | prompt i =>
    obtain ⟨k, hk, hprompt⟩ := built_eq_some hp
    have hturn : p.turn = k.turn := by
      obtain ⟨_, -, rfl⟩ := Option.map_eq_some_iff.1 hprompt
      rfl
    simp only [Prompt.isOf, hturn, Bool.and_eq_true, decide_eq_true_eq] at hof
    exact (shows_of_prompt h.answered h.retained (h.running k (mem_of_workerOf hk).1) hof.1 hof.2
      hprompt).2
  | _ => cases hp

theorem Followed.prompt (h : Followed c a w done) (i : ℕ) :
    Followed c a (w.step captions (.prompt i)) done := by
  rw [World.step]
  split
  · rename_i p hp
    obtain ⟨k₀, hk₀, hprompt⟩ := built_eq_some hp
    obtain ⟨hmem₀, hid₀⟩ := mem_of_workerOf hk₀
    refine
      { answered := h.answered
        retained := h.retained
        running := ?_
        built := ?_
        delivered := h.delivered }
    · intro k' hk'
      obtain ⟨k, hk, rfl⟩ := List.mem_map.1 hk'
      split
      · exact h.running k hk
      · exact h.running k hk
    · intro k' hk' p' hp'
      obtain ⟨k, hk, rfl⟩ := List.mem_map.1 hk'
      by_cases hid : k.turn.id = i
      · -- a row has one number, so this is the turn of the worker that was found
        have hsame : k.turn = k₀.turn := h.answered.schema.eq_of_id (h.running k hk).1
          (h.running k₀ hmem₀).1 (hid.trans hid₀.symm)
        rw [if_pos hid] at hp' ⊢
        obtain rfl := Option.some.inj hp'
        obtain ⟨native, hnative, hbuilt⟩ := Option.map_eq_some_iff.1 hprompt
        have hturn : p.turn = k.turn := by rw [hsame, ← hbuilt]
        refine ⟨hturn, fun (hc : k.turn.conversationId = c) (ha : k.turn.agentId = a) =>
          ⟨h.shows_built hp ?_, native, ?_⟩⟩
        · simp [Prompt.isOf, hturn, hc, ha]
        · rw [hsame] at hc ha
          rwa [hc, ha] at hnative
      · rw [if_neg hid] at hp' ⊢
        exact h.built k hk p' hp'
  · exact h

variable (captions w) in
/-- What a completion does: nothing, or its worker goes, and if the response was published the
prompt was delivered. -/
theorem complete_cases (i : ℕ) (content native : String) :
    (w.step captions (.complete i content native) = w ∧
      w.delivered (.complete i content native) = none) ∨
    ∃ k p m, w.workerOf i = some k ∧ k.prompt = some p ∧
      SessionDb.completeWithMessage k.turn native
        { senderType := "agent", senderId := k.turn.agentId, content } none w.store =
          .ok (m, (w.step captions (.complete i content native)).store) ∧
      (w.step captions (.complete i content native)).workers =
        w.workers.filter (·.turn.id ≠ i) ∧
      w.delivered (.complete i content native) = m.map fun _ => p := by
  cases hk : w.workerOf i with
  | none => exact Or.inl ⟨by rw [World.step, hk], by rw [World.delivered, hk]; rfl⟩
  | some k =>
    rw [World.step, World.delivered, hk]
    dsimp only
    rw [Option.bind_some]
    cases hp : k.prompt with
    | none => exact Or.inl ⟨rfl, rfl⟩
    | some p =>
      rcases w.store.step_cases (World.completion k content native) with
        ⟨-, hreply⟩ | ⟨r, hok, hreply⟩
      · rw [hreply]
        exact Or.inl ⟨rfl, rfl⟩
      · obtain ⟨⟨m, s'⟩, hcomplete, hok⟩ := bind_ok hok
        obtain ⟨hr, heq⟩ := Prod.mk.inj (Except.ok.inj hok)
        rw [hreply, ← hr]
        refine Or.inr ⟨k, p, m, rfl, hp, ?_, rfl, ?_⟩
        · rw [hcomplete, heq]
          rfl
        · cases m <;> rfl

/-- The prompts that a step delivers to the agent. -/
def World.deliveredTo (c a : String) (w : World) (e : Event) : List Prompt :=
  (w.delivered e).toList.filter (Prompt.isOf c a)

theorem lastTrigger_concat (p : Prompt) : lastTrigger (done ++ [p]) = p.trigger := by
  rw [lastTrigger, List.getLast?_concat, Option.map_some, Option.getD_some]

/-- The agent's own turn is completed: its prompt is the last one now. -/
theorem Followed.deliver {s' : SessionDb} {workers : List Worker} {k : Worker} {p : Prompt}
    (h : Followed c a w done) (hk : k ∈ w.workers) (hp : k.prompt = some p)
    (hc : k.turn.conversationId = c) (ha : k.turn.agentId = a)
    (hanswered : s'.db.AnsweredUpTo c a k.turn.trigger) (hextends : w.store.db.Extends s'.db)
    (hsession : ∃ n, s'.session c a = some (some n))
    (hworkers : ∀ k' ∈ workers, k' ∈ w.workers ∧ k'.turn.id ≠ k.turn.id ∧ s'.db.Runs k'.turn) :
    Followed c a ⟨s', workers⟩ (done ++ [p]) := by
  obtain ⟨hturn, hof⟩ := h.built k hk p hp
  obtain ⟨hshows, -⟩ := hof hc ha
  have htrigger : p.trigger = k.turn.trigger := congrArg _ hturn
  have hactive {t : ConversationTurn} (ht : w.store.db.Runs t) : t.status.active :=
    TurnStatus.active_iff.2 (Or.inr ht.2)
  refine
    { answered := by rwa [lastTrigger_concat, htrigger]
      retained := fun _ => hsession
      running := fun k' hk' => (hworkers k' hk').2.2
      built := ?_
      delivered := ?_ }
  · intro k' hk' p' hp'
    obtain ⟨hmem, hne, -⟩ := hworkers k' hk'
    refine ⟨(h.built k' hmem p' hp').1, fun hc' ha' => ?_⟩
    -- the agent has one active turn in the conversation
    have hsame := h.answered.schema.eq_of_active (h.running k' hmem).1 (h.running k hk).1
      (hactive (h.running k' hmem)) (hactive (h.running k hk)) (hc'.trans hc.symm)
      (ha'.trans ha.symm)
    exact absurd (congrArg _ hsame) hne
  · intro before q after heq
    rcases List.eq_nil_or_concat after with rfl | ⟨after, r, rfl⟩
    · obtain ⟨rfl, hpq⟩ := List.append_inj' heq rfl
      obtain rfl := (List.cons.inj hpq).1
      refine ⟨?_, hshows.extends h.answered.numbered hextends⟩
      simp [Prompt.isOf, hturn, hc, ha]
    · have heq' : done ++ [p] = (before ++ q :: after) ++ [r] := by simpa using heq
      obtain ⟨hdone, -⟩ := List.append_inj' heq' rfl
      obtain ⟨hq, hshowsq⟩ := h.delivered before q after hdone
      exact ⟨hq, hshowsq.extends h.answered.numbered hextends⟩

theorem Followed.complete (h : Followed c a w done) (i : ℕ) (content native : String) :
    Followed c a (w.step captions (.complete i content native))
      (done ++ w.deliveredTo c a (.complete i content native)) := by
  rcases complete_cases captions w i content native with
    ⟨hstep, hnone⟩ | ⟨k, p, m, hk, hp, hcomplete, hworkers, hdelivered⟩
  · rw [hstep, World.deliveredTo, hnone]
    simpa using h
  obtain ⟨hmem, hid⟩ := mem_of_workerOf hk
  have hruns := h.running k hmem
  have hdb := SessionDb.db_of_ok (SessionDb.completeWithMessage_db _ native _ none) hcomplete
  generalize w.step captions (.complete i content native) = w' at hcomplete hworkers hdb
  obtain ⟨s', workers⟩ := w'
  dsimp only at hcomplete hworkers hdb
  subst hworkers
  cases m with
  | none =>
    have hsame := SessionDb.eq_of_unpublished hcomplete
    subst hsame
    rw [World.deliveredTo, hdelivered]
    have hrest : Followed c a ⟨w.store, w.workers.filter (·.turn.id ≠ i)⟩ done :=
      h.of_step h.answered (.of_eq rfl) (.of_eq rfl) fun k' hk' =>
        ⟨h.running k' (List.mem_of_mem_filter hk'), Or.inr (List.mem_of_mem_filter hk')⟩
    simpa using hrest
  | some stored =>
    obtain ⟨hanswered, hextends, hothers⟩ := Db.complete_answered h.answered hruns hdb
    obtain ⟨hturn, hof⟩ := h.built k hmem p hp
    have hkeep : ∀ k' ∈ w.workers.filter (·.turn.id ≠ i), k' ∈ w.workers ∧
        k'.turn.id ≠ k.turn.id ∧ s'.db.Runs k'.turn := by
      intro k' hk'
      obtain ⟨hmem', hne⟩ := List.mem_filter.1 hk'
      have hne' : k'.turn.id ≠ k.turn.id := by
        rw [hid]
        exact of_decide_eq_true hne
      exact ⟨hmem', hne', hothers _ (h.running k' hmem') hne'⟩
    rw [World.deliveredTo, hdelivered]
    by_cases hown : k.turn.conversationId = c ∧ k.turn.agentId = a
    · rw [if_pos hown] at hanswered
      obtain ⟨-, x, hx⟩ := hof hown.1 hown.2
      have hsession := (SessionDb.completeWithMessage_keeps (c := c) (a := a) h.answered.schema
        hruns hcomplete).2 x (by rwa [hown.1, hown.2])
      rw [hown.1, hown.2] at hsession
      have hpof : p.isOf c a = true := by simp [Prompt.isOf, hturn, hown.1, hown.2]
      have hlist : ((some stored).map fun _ => p).toList.filter (Prompt.isOf c a) = [p] := by
        simp [hpof]
      rw [hlist]
      exact h.deliver hmem hp hown.1 hown.2 hanswered hextends ⟨native, hsession⟩ hkeep
    · rw [if_neg hown] at hanswered
      have hpof : p.isOf c a = false := by
        simp only [Prompt.isOf, hturn, Bool.and_eq_false_iff, decide_eq_false_iff_not]
        exact not_and_or.1 hown
      have hlist : ((some stored).map fun _ => p).toList.filter (Prompt.isOf c a) = [] := by
        simp [hpof]
      rw [hlist, List.append_nil]
      exact h.of_step hanswered hextends
        (SessionDb.completeWithMessage_keeps h.answered.schema hruns hcomplete).1
        fun k' hk' => ⟨(hkeep k' hk').2.2, Or.inr (hkeep k' hk').1⟩

variable (captions) in
/-- **One step.** -/
theorem Followed.step (h : Followed c a w done) {e : Event} (hothers : e.FromOthers) :
    Followed c a (w.step captions e) (done ++ w.deliveredTo c a e) := by
  cases e with
  | complete i content native => exact h.complete i content native
  | sendRouted c' msg target =>
    simpa [World.deliveredTo, World.delivered] using h.sendRouted c' msg target
  | sendAgentRouted c' msg task =>
    simpa [World.deliveredTo, World.delivered] using h.sendAgentRouted c' msg task
  | sendTargeted c' target msg =>
    simpa [World.deliveredTo, World.delivered] using h.sendTargeted hothers
  | sendStructured c' msg target =>
    simpa [World.deliveredTo, World.delivered] using h.sendStructured c' msg target
  | claimNext => simpa [World.deliveredTo, World.delivered] using h.claimNext
  | prompt i => simpa [World.deliveredTo, World.delivered] using h.prompt i
  | restart => simpa [World.deliveredTo, World.delivered] using h.restart
  | tick now => simpa [World.deliveredTo, World.delivered] using h.tick now

end Runs

/-- A process that has just been started on a database without messages and turns. -/
structure World.Fresh (w : World) : Prop where
  db : w.store.db.Fresh
  workers : w.workers = []

/-- The prompts that a run delivers to the agent, in order. -/
def World.deliveries (captions : ConversationTurn → Captions) (c a : String) (w : World)
    (events : List Event) : List Prompt :=
  (outputs (World.step captions) World.delivered w events).filter (Prompt.isOf c a)

/-- At most 80 visible messages from behind each trigger up to the next one. -/
def Narrow (db : Db) (c : String) (earlier later : List Prompt) : Prop :=
  ∀ front p back, later = front ++ p :: back →
    (window (·.id) (lastTrigger (earlier ++ front)) p.trigger (db.visible c)).length ≤ 80

section Partition

variable {captions : ConversationTurn → Captions} {c a : String} {w : World}

variable (captions) in
theorem followed_runOps {events : List Event} (hfresh : w.Fresh)
    (hp : w.store.db.isParticipant c "agent" a) (hothers : ∀ e ∈ events, e.FromOthers) :
    Followed c a (runOps (World.step captions) w events) (w.deliveries captions c a events) := by
  induction events using List.reverseRecOn with
  | nil =>
    obtain ⟨⟨hm, ht, hpos⟩, hw⟩ := hfresh
    have hturns : w.store.db.turnsOf c a = [] := by simp [Db.turnsOf, ht]
    refine
      { answered :=
          { schema := ⟨by simp [ht], by simp [ht]⟩
            numbered := ⟨hpos, by simp [hm], by simp [ht]⟩
            ascending := by simp [hm, Ascending]
            participant := hp
            sound := by simp [hturns]
            reached := Or.inl rfl }
        retained := fun hne => absurd rfl hne
        running := by simp [hw]
        built := by simp [hw]
        delivered := fun before p after h => ?_ }
    simp [World.deliveries, outputs] at h
  | append_singleton events e ih =>
    have hold := ih fun e' he' => hothers e' (List.mem_append_left _ he')
    have hstep := hold.step captions (hothers e (by simp))
    rw [runOps_concat]
    rwa [World.deliveries, outputs_concat, List.filter_append]

theorem Db.AnsweredUpTo.ascending_visible {db : Db} {last : ℕ} (h : db.AnsweredUpTo c a last) :
    Ascending (·.id) (db.visible c) :=
  h.ascending.filter _

theorem Db.Shows.foreign_messages {db : Db} {last : ℕ} {before : List Prompt} {p : Prompt}
    (hdb : db.AnsweredUpTo c a last) (h : db.Shows c a before p)
    (hnarrow : (window (·.id) (lastTrigger before) p.trigger (db.visible c)).length ≤ 80) :
    p.messages.filter (fun m => !m.ownOf a) =
      (window (·.id) (lastTrigger before) p.trigger (db.visible c)).filter
        fun m => !m.ownOf a := by
  rw [h.messages, hdb.ascending_visible.window.newest_of_le hnarrow, List.filter_filter]
  refine List.filter_congr fun m _ => ?_
  cases m.ownOf a <;> simp

/-- A prompt holds its own trigger. -/
theorem Db.Shows.mem_trigger {db : Db} {last : ℕ} {before : List Prompt} {p : Prompt}
    (hdb : db.AnsweredUpTo c a last) (h : db.Shows c a before p) :
    ∃ m ∈ p.messages, m.id = p.trigger := by
  obtain ⟨m, hm, hid, hc, hvisible, hown⟩ := h.foreign
  have hmem : m ∈ window (·.id) (lastTrigger before) p.trigger (db.visible c) := by
    refine mem_window.2 ⟨List.mem_filter.2 ⟨hm, by simp [hc, hvisible]⟩, ?_, hid.le⟩
    rw [hid]
    exact h.newer
  refine ⟨m, ?_, hid⟩
  rw [h.messages]
  refine List.mem_filter.2 ⟨?_, by simp [hown]⟩
  refine hdb.ascending_visible.window.mem_newest (by decide) hmem fun y hy => ?_
  rw [hid]
  exact (mem_window.1 hy).2.2

theorem Db.Shows.ascending {db : Db} {last : ℕ} {before : List Prompt} {p : Prompt}
    (hdb : db.AnsweredUpTo c a last) (h : db.Shows c a before p) : Ascending (·.id) p.messages := by
  rw [h.messages]
  exact hdb.ascending_visible.window.newest.filter _

theorem Db.Shows.bounds {db : Db} {before : List Prompt} {p : Prompt} (h : db.Shows c a before p)
    {m : ConversationMessage} (hm : m ∈ p.messages) :
    (lastTrigger before < m.id ∧ m.id ≤ p.trigger) ∧
      (p.sessionStart ≠ .new → m.ownOf a = false) := by
  rw [h.messages] at hm
  obtain ⟨hmem, hkeep⟩ := List.mem_filter.1 hm
  refine ⟨(mem_window.1 (mem_of_mem_newest hmem)).2, fun hresumed => ?_⟩
  simpa [hresumed] using hkeep

/-- The windows of the prompts that were delivered meet. -/
theorem Followed.partition {done : List Prompt} (h : Followed c a w done)
    {earlier later : List Prompt} (hdone : done = earlier ++ later)
    (hnarrow : Narrow w.store.db c earlier later) :
    lastTrigger earlier ≤ lastTrigger (earlier ++ later) ∧
      later.flatMap (fun p => p.messages.filter fun m => !m.ownOf a) =
        (window (·.id) (lastTrigger earlier) (lastTrigger (earlier ++ later))
          (w.store.db.visible c)).filter fun m => !m.ownOf a := by
  have hshows : ∀ before p after, later = before ++ p :: after →
      w.store.db.Shows c a (earlier ++ before) p := fun before p after heq =>
    (h.delivered (earlier ++ before) p after (by rw [hdone, heq, List.append_assoc])).2
  clear hdone
  induction later using List.reverseRecOn with
  | nil =>
    rw [List.append_nil, window_eq_nil le_rfl]
    exact ⟨le_rfl, rfl⟩
  | append_singleton later p ih =>
    obtain ⟨hle, heq⟩ := ih
      (fun front q back hq => hnarrow front q (back ++ [p]) (by rw [hq]; simp))
      (fun before q after hq => hshows before q (after ++ [p]) (by rw [hq]; simp))
    have hp := hshows later p [] rfl
    have hlast : lastTrigger (earlier ++ (later ++ [p])) = p.trigger := by
      rw [← List.append_assoc, lastTrigger_concat]
    have hnew := hp.foreign_messages h.answered (hnarrow later p [] rfl)
    rw [hlast]
    refine ⟨hle.trans hp.newer.le, ?_⟩
    rw [List.flatMap_append, heq, List.flatMap_singleton, hnew, ← List.filter_append,
      h.answered.ascending_visible.window_append hle hp.newer.le]

variable (captions) in
/-- **The prompts of a run.**  In every run of sends, claims, prompts, completions and restarts, a
prompt that is built for the agent holds its own trigger, in the order of the messages, and nothing
that an earlier completed turn answered; and the prompts of the completed turns show every visible
message that the agent did not write itself once, as long as at most 80 visible messages lie behind
one trigger and not behind the next. -/
theorem prompts_partition {events : List Event} (hfresh : w.Fresh)
    (hp : w.store.db.isParticipant c "agent" a) (hothers : ∀ e ∈ events, e.FromOthers) :
    (∀ before e, before ++ [e] <+: events → ∀ p,
      (runOps (World.step captions) w before).built captions e = some p → p.isOf c a = true →
        (∃ m ∈ p.messages, m.id = p.trigger) ∧ Ascending (·.id) p.messages ∧
        (∀ m ∈ p.messages,
          lastTrigger (w.deliveries captions c a before) < m.id ∧ m.id ≤ p.trigger) ∧
        (w.deliveries captions c a before ≠ [] →
          p.sessionStart ≠ .new ∧ ∀ m ∈ p.messages, m.ownOf a = false)) ∧
    (∀ earlier later, w.deliveries captions c a events = earlier ++ later →
      Narrow (runOps (World.step captions) w events).store.db c earlier later →
      later.flatMap (fun p => p.messages.filter fun m => !m.ownOf a) =
        (window (·.id) (lastTrigger earlier) (lastTrigger (earlier ++ later))
          ((runOps (World.step captions) w events).store.db.visible c)).filter
            fun m => !m.ownOf a) ∧
    lastTrigger (w.deliveries captions c a events) =
      ((runOps (World.step captions) w events).store.db.latestPromptBoundaryBefore c a
        (runOps (World.step captions) w events).store.db.nextMessageId true).getD 0 := by
  have hfollowed := followed_runOps captions hfresh hp hothers
  refine ⟨fun before e hpre p hbuilt hof => ?_,
    fun earlier later hdone hnarrow => (hfollowed.partition hdone hnarrow).2,
    (hfollowed.answered.boundary hfollowed.answered.last_lt).symm⟩
  have hbefore := followed_runOps captions hfresh hp fun e' (he' : e' ∈ before) =>
    hothers e' (hpre.subset (List.mem_append_left _ he'))
  have hshows := hbefore.shows_built hbuilt hof
  refine ⟨hshows.mem_trigger hbefore.answered, hshows.ascending hbefore.answered,
    fun m hm => (hshows.bounds hm).1, fun hne => ⟨hshows.resumed hne, fun m hm => ?_⟩⟩
  exact (hshows.bounds hm).2 (hshows.resumed hne)

theorem narrow_of_length {db : Db} {earlier later : List Prompt}
    (h : (db.visible c).length ≤ 80) : Narrow db c earlier later :=
  fun _ _ _ _ => (List.length_filter_le _ _).trans h

end Partition

/-! ## A turn that is put back -/

/-- Prompts without names and attachments. -/
def plainCaptions (turn : ConversationTurn) : Captions where
  contextLabel := turn.agentId
  title := none
  projectId := none
  senderName _ := none
  attachments _ := []
  debug text := text

/-- A user addresses the agent. -/
def askAtlas : Event := .sendRouted "c" ⟨"user", "u", "hello @[AGENT:atlas:Atlas]"⟩ none

/-- The process ends while the agent's second turn runs, after its prompt was built. -/
def restartRun : List Event :=
  [askAtlas, .claimNext, .prompt 0, .complete 0 "done" "n1", askAtlas, .claimNext, .prompt 1,
    .restart, .claimNext, .prompt 1, .complete 1 "done again" "n1"]

def restartWorld : World := { store := { db := twoAgents } }

theorem fresh_restartWorld : restartWorld.Fresh := ⟨fresh_twoAgents, rfl⟩

theorem restartRun_fromOthers : ∀ e ∈ restartRun, e.FromOthers := by
  simp [restartRun, askAtlas, Event.FromOthers]

theorem narrow_restartRun (earlier later : List Prompt) :
    Narrow (runOps (World.step plainCaptions) restartWorld restartRun).store.db "c" earlier later :=
  narrow_of_length (by decide +kernel)

/-- The prompts that the run delivers to the agent. -/
def restartPrompts : List Prompt :=
  restartWorld.deliveries plainCaptions "c" "atlas" restartRun

theorem restartRun_partition :
    (restartPrompts.drop 1).flatMap (fun p => p.messages.filter fun m => !m.ownOf "atlas") =
      (window (·.id) (lastTrigger (restartPrompts.take 1))
        (lastTrigger (restartPrompts.take 1 ++ restartPrompts.drop 1))
        ((runOps (World.step plainCaptions) restartWorld restartRun).store.db.visible "c")).filter
          fun m => !m.ownOf "atlas" :=
  (prompts_partition plainCaptions fresh_restartWorld (by decide) restartRun_fromOthers).2.1
    (restartPrompts.take 1) (restartPrompts.drop 1) (List.take_append_drop 1 restartPrompts).symm
    (narrow_restartRun _ _)

/-- A prompt is built again for a turn that a restart has put back, so two prompts of resumed
sessions are built that show its trigger. -/
theorem prompt_built_again : ¬ ∀ (captions : ConversationTurn → Captions) (w : World)
    (events : List Event) (c a : String) (m : ConversationMessage) (earlier later : List Prompt),
    w.Fresh → w.store.db.isParticipant c "agent" a = true → (∀ e ∈ events, e.FromOthers) →
    w.deliveries captions c a events = earlier ++ later → earlier ≠ [] →
    Narrow (runOps (World.step captions) w events).store.db c earlier later →
    m ∈ (runOps (World.step captions) w events).store.db.visible c → m.ownOf a = false →
    lastTrigger earlier < m.id → m.id ≤ lastTrigger (earlier ++ later) →
    ((outputs (World.step captions) (World.built captions) w events).filter fun p =>
      p.isOf c a && p.sessionStart ≠ .new && decide (m ∈ p.messages)).length = 1 := by
  intro h
  have htwice := h plainCaptions restartWorld restartRun "c" "atlas"
    { id := 3, conversationId := "c", senderType := "user", senderId := "u",
      content := "hello @[AGENT:atlas:Atlas]" }
    (restartPrompts.take 1) (restartPrompts.drop 1) fresh_restartWorld (by decide)
    restartRun_fromOthers (List.take_append_drop 1 restartPrompts).symm (by decide +kernel)
    (narrow_restartRun _ _) (by decide +kernel) (by decide) (by decide +kernel) (by decide +kernel)
  revert htwice
  decide +kernel

end XpressClaw.Conversations
