import Mathlib.Data.List.Dedup
import Mathlib.Data.List.Induction
import XpressClaw.Server.Throttle

/-!
# Guesses in a window

A run of the instance beside the history of its verifications, and what the throttle makes of
that history.

* `watch`, `failuresOf`, `openFailures` — the history, the failures of a peer, and those since
  its credential was last accepted.
* `length_windowAt_le` — the failures of a window that has not ended are open and recent.
* `Traced` — the table holds failures of the history only, and one row a peer.
* `Exact` — while the table is not full it holds every open failure that is recent, and so no
  window has more than five.
* `throttle_bounds_guessing` — the bounds, for every run.
-/

namespace XpressClaw.Server

open Lib

/-! ## Histories -/

/-- The time of a failure of the peer. -/
def Event.failure? (peer : String) : Event → Option ℕ
  | .failed p at_ => if p = peer then some at_ else none
  | .accepted _ _ | .succeeded _ _ => none

/-- The failures of a peer, in order. -/
def failuresOf (peer : String) (past : List Event) : List ℕ := past.filterMap (Event.failure? peer)

/-- The failures of a peer since its credential was last accepted. -/
def openFailures (peer : String) (past : List Event) : List ℕ :=
  past.foldl (fun times e =>
    match e with
    | .failed p at_ => if p = peer then times ++ [at_] else times
    | .accepted p _ => if p = peer then [] else times
    | .succeeded _ _ => times) []

/-- The times in the window that starts at `start`. -/
def windowAt (start : ℕ) (times : List ℕ) : List ℕ :=
  times.filter fun at_ => start ≤ at_ ∧ at_ < start + loginWindow

/-- The peers that have a failure in the window that ends now. -/
def failingPeers (now : ℕ) (past : List Event) : List String :=
  (past.filterMap fun e =>
    match e with
    | .failed p at_ => if now - at_ < loginWindow then some p else none
    | _ => none).dedup

/-- An instance and what happened to it. -/
structure Watched (κ : Type) where
  auth : InstanceAuth κ
  past : List Event := []

section Watch

variable {κ : Type} [DecidableEq κ] (crypto : Crypto κ)

def watch (w : Watched κ) (op : Op) : Watched κ where
  auth := step crypto w.auth op
  past := w.past ++ (w.auth.event op).toList

omit [DecidableEq κ] in
/-- As many peers failed within the window as the table has room for. -/
def Watched.crowded (w : Watched κ) : Bool :=
  maxTrackedLoginPeers ≤ (failingPeers w.auth.now w.past).length

end Watch

/-! ## Facts about histories -/

section Histories

variable {peer p : String} {past : List Event} {now now' start at_ : ℕ} {times : List ℕ} {e : Event}

theorem failuresOf_concat : failuresOf peer (past ++ [e]) =
    failuresOf peer past ++ (e.failure? peer).toList := by
  rw [failuresOf, List.filterMap_append]
  cases h : e.failure? peer <;> simp [failuresOf, h]

@[simp] theorem openFailures_failed : openFailures peer (past ++ [.failed p at_]) =
    if p = peer then openFailures peer past ++ [at_] else openFailures peer past := by
  simp [openFailures]

@[simp] theorem openFailures_accepted : openFailures peer (past ++ [.accepted p at_]) =
    if p = peer then [] else openFailures peer past := by
  simp [openFailures]

@[simp] theorem openFailures_succeeded : openFailures peer (past ++ [.succeeded p at_]) =
    openFailures peer past := by
  simp [openFailures]

theorem mem_failuresOf : at_ ∈ failuresOf peer past ↔ .failed peer at_ ∈ past := by
  rw [failuresOf, List.mem_filterMap]
  constructor
  · rintro ⟨e, he, hfail⟩
    cases e with
    | failed p t =>
      rw [Event.failure?] at hfail
      split at hfail
      · rename_i hp
        obtain rfl := Option.some.inj hfail
        exact hp ▸ he
      · cases hfail
    | accepted p t => cases hfail
    | succeeded p t => cases hfail
  · exact fun h => ⟨_, h, if_pos rfl⟩

theorem inWindow_append (times times' : List ℕ) :
    inWindow now (times ++ times') = inWindow now times ++ inWindow now times' :=
  List.filter_append _ _

theorem inWindow_inWindow (h : now ≤ now') :
    inWindow now' (inWindow now times) = inWindow now' times := by
  rw [inWindow, inWindow, List.filter_filter]
  refine List.filter_congr fun t _ => ?_
  by_cases hlt : now' - t < loginWindow
  · have hlt' : now - t < loginWindow := by omega
    simp [hlt, hlt']
  · simp [hlt]

theorem length_inWindow_anti (h : now ≤ now') :
    (inWindow now' times).length ≤ (inWindow now times).length := by
  rw [← inWindow_inWindow h]
  exact List.length_filter_le _ _

theorem windowAt_eq_nil (h : ∀ e ∈ past, e.time < start) :
    windowAt start (failuresOf peer past) = [] := by
  refine List.filter_eq_nil_iff.2 fun t ht => ?_
  have hlt : t < start := h _ (mem_failuresOf.1 ht)
  rw [decide_eq_true_eq]
  omega

/-- **The failures of a window that has not ended** are open and recent, if no credential of
the peer was accepted in it. -/
theorem length_windowAt_le (hnow : now < start + loginWindow)
    (hsorted : past.Pairwise fun a b => a.time ≤ b.time) (hpast : ∀ e ∈ past, e.time ≤ now)
    (hnone : ∀ t, .accepted peer t ∈ past → start ≤ t → ¬ t < start + loginWindow) :
    (windowAt start (failuresOf peer past)).length ≤
      (inWindow now (openFailures peer past)).length := by
  induction past using List.reverseRecOn with
  | nil => exact le_rfl
  | append_singleton past e ih =>
    have hbefore := List.pairwise_append.1 hsorted
    have hle : ∀ e' ∈ past, e'.time ≤ e.time := fun e' he' =>
      hbefore.2.2 e' he' e (List.mem_singleton_self e)
    have he : e.time ≤ now := hpast e (by simp)
    have hrest := ih hbefore.1 (fun e' he' => hpast e' (List.mem_append_left _ he'))
      fun t ht => hnone t (List.mem_append_left _ ht)
    by_cases hstart : e.time < start
    · -- everything so far happened before the window
      have hall : ∀ e' ∈ past ++ [e], e'.time < start := by
        intro e' he'
        rcases List.mem_append.1 he' with he' | he'
        · exact Nat.lt_of_le_of_lt (hle e' he') hstart
        · rw [List.mem_singleton.1 he']
          exact hstart
      rw [windowAt_eq_nil hall]
      exact Nat.zero_le _
    · rw [failuresOf_concat]
      cases e with
      | failed p t =>
        rw [openFailures_failed, Event.failure?]
        by_cases hp : p = peer
        · have ht : start ≤ t := not_lt.1 hstart
          have htn : t ≤ now := he
          have hin : now - t < loginWindow := by omega
          have hlast : inWindow now [t] = [t] := by simp [inWindow, hin]
          rw [if_pos hp, if_pos hp, inWindow_append, List.length_append, hlast, windowAt,
            List.filter_append, List.length_append]
          exact Nat.add_le_add hrest (List.length_filter_le _ _)
        · rw [if_neg hp, if_neg hp, Option.toList_none, List.append_nil]
          exact hrest
      | accepted p t =>
        rw [openFailures_accepted, Event.failure?, Option.toList_none, List.append_nil]
        by_cases hp : p = peer
        · subst hp
          have ht : t ≤ now := he
          exact absurd (Nat.lt_of_le_of_lt ht hnow) (hnone t (by simp) (not_lt.1 hstart))
        · rw [if_neg hp]
          exact hrest
      | succeeded p t =>
        rw [openFailures_succeeded, Event.failure?, Option.toList_none, List.append_nil]
        exact hrest

end Histories

/-! ## The table and the history -/

/-- What the table holds are failures of the history, in one row a peer. -/
structure Traced {κ : Type} (w : Watched κ) : Prop where
  sorted : w.past.Pairwise fun a b => a.time ≤ b.time
  past : ∀ e ∈ w.past, e.time ≤ w.auth.now
  rows : (w.auth.loginFailures.map LoginFailures.peer).Nodup
  known : ∀ f ∈ w.auth.loginFailures, f.failures.Sublist (failuresOf f.peer w.past)

section Traces

variable {κ : Type} {w : Watched κ} {peer : String} {e : Event}

theorem failuresOf_sublist (peer : String) (past more : List Event) :
    (failuresOf peer past).Sublist (failuresOf peer (past ++ more)) :=
  (List.sublist_append_left past more).filterMap _

theorem Traced.recent (h : Traced w) {f : LoginFailures} (hf : f ∈ w.auth.recentFailures) :
    f.failures.Sublist (inWindow w.auth.now (failuresOf f.peer w.past)) ∧
      f.peer ∈ failingPeers w.auth.now w.past := by
  obtain ⟨f₀, hf₀, rfl, hne⟩ := InstanceAuth.mem_recentFailures.1 hf
  have hsub := (h.known f₀ hf₀).filter fun at_ => decide (w.auth.now - at_ < loginWindow)
  refine ⟨hsub, ?_⟩
  obtain ⟨t, ht⟩ := List.exists_mem_of_ne_nil _ hne
  obtain ⟨hpast, hrecent⟩ := List.mem_filter.1 (hsub.subset ht)
  rw [failingPeers, List.mem_dedup, List.mem_filterMap]
  exact ⟨_, mem_failuresOf.1 hpast, if_pos (of_decide_eq_true hrecent)⟩

theorem Traced.room (h : Traced w) (hcrowd : w.crowded = false) :
    w.auth.recentFailures.length < maxTrackedLoginPeers := by
  have hnd := h.rows.sublist (InstanceAuth.map_peer_recentFailures w.auth)
  have hsub : w.auth.recentFailures.map LoginFailures.peer ⊆ failingPeers w.auth.now w.past := by
    intro p hp
    obtain ⟨f, hf, rfl⟩ := List.mem_map.1 hp
    exact (h.recent hf).2
  have hle := (List.subperm_of_subset hnd hsub).length_le
  rw [List.length_map] at hle
  exact hle.trans_lt (not_le.1 (of_decide_eq_false hcrowd))

theorem Traced.length_rowOf_le (h : Traced w) (peer : String) :
    (rowOf peer w.auth.recentFailures).length ≤
      (inWindow w.auth.now (failuresOf peer w.past)).length := by
  unfold rowOf
  cases hget : Table.get LoginFailures.peer w.auth.recentFailures peer with
  | none => exact Nat.zero_le _
  | some f =>
    have hpeer : f.peer = peer := Table.key_of_get hget
    exact hpeer ▸ (h.recent (Table.mem_of_get hget)).1.length_le

theorem Section.event_time {auth : InstanceAuth κ} {i : ℕ} {l : Login κ} {stage : Stage κ}
    {gate : Option ℕ} {failures : List LoginFailures} {event : Option Event}
    (h : auth.Section i l stage gate failures event) : ∀ e ∈ event, e.time = auth.now := by
  cases h <;> simp [Event.time]

variable [DecidableEq κ] {crypto : Crypto κ}

theorem watch_traced (h : Traced w) (hb : w.auth.Bounded) (op : Op) :
    Traced (watch crypto w op) := by
  rcases InstanceAuth.step_cases crypto w.auth op with
    ⟨hidle, hevent⟩ | ⟨i, l, stage, gate, failures, event, -, hsec, -, -, hfailures, hnow, hevent⟩
  · have hpast : (watch crypto w op).past = w.past := by
      show w.past ++ (w.auth.event op).toList = w.past
      rw [hevent, Option.toList_none, List.append_nil]
    refine ⟨hpast ▸ h.sorted, ?_, ?_, ?_⟩
    · rw [hpast]
      exact fun e he => (h.past e he).trans hidle.now
    · show ((step crypto w.auth op).loginFailures.map LoginFailures.peer).Nodup
      rw [hidle.failures]
      exact h.rows
    · show ∀ f ∈ (step crypto w.auth op).loginFailures, _
      rw [hidle.failures, hpast]
      exact h.known
  · have hpast : (watch crypto w op).past = w.past ++ event.toList := by
      show w.past ++ (w.auth.event op).toList = _
      rw [hevent]
    have htime : ∀ e ∈ event.toList, e.time = w.auth.now := fun e he =>
      Section.event_time hsec e (by simpa using he)
    have hknown (f : LoginFailures) (hf : f ∈ w.auth.loginFailures) :
        f.failures.Sublist (failuresOf f.peer (w.past ++ event.toList)) :=
      (h.known f hf).trans (failuresOf_sublist _ _ _)
    have hrecent (f : LoginFailures) (hf : f ∈ w.auth.recentFailures) :
        f.failures.Sublist (failuresOf f.peer (w.past ++ event.toList)) :=
      ((h.recent hf).1.trans List.filter_sublist).trans (failuresOf_sublist _ _ _)
    have hnd := h.rows.sublist (InstanceAuth.map_peer_recentFailures w.auth)
    have hrows : (failures.map LoginFailures.peer).Nodup ∧
        ∀ f ∈ failures, f.failures.Sublist (failuresOf f.peer (w.past ++ event.toList)) := by
      cases hsec with
      | pass => exact ⟨hnd, hrecent⟩
      | reject => exact ⟨hnd, hrecent⟩
      | forget =>
        exact ⟨h.rows.sublist (List.filter_sublist.map _),
          fun f hf => hknown f (List.mem_filter.1 hf).1⟩
      | record =>
        have hlast : failuresOf l.peer
          (w.past ++ (some (Event.failed l.peer w.auth.now)).toList) =
            failuresOf l.peer w.past ++ [w.auth.now] := by
          rw [Option.toList_some, failuresOf_concat, Event.failure?, if_pos rfl,
            Option.toList_some]
        have hfull := InstanceAuth.length_recentFailures_le.trans hb.failures
        rcases InstanceAuth.recordFailure_cases hfull l.peer with
          ⟨-, heq⟩ | ⟨kept, hsub, -, hnew, -, heq⟩
        · rw [heq]
          refine ⟨by rwa [Table.map_key_modify (by intro f; rfl)], fun f hf => ?_⟩
          rcases Table.mem_modify hf with ⟨hold, -⟩ | ⟨f₀, hold, hpeer, rfl⟩
          · exact hrecent f hold
          · dsimp only
            rw [hpeer, hlast]
            exact (hpeer ▸ (h.recent hold).1.trans List.filter_sublist).append
              (List.Sublist.refl _)
        · rw [heq]
          constructor
          · rw [List.map_append, List.map_singleton]
            refine List.nodup_append.2 ⟨hnd.sublist (hsub.map _), List.pairwise_singleton _ _, ?_⟩
            rintro a ha b hb' rfl
            rw [List.mem_singleton.1 hb'] at ha
            exact hnew ha
          · intro f hf
            rcases List.mem_append.1 hf with hf | hf
            · exact hrecent f (hsub.subset hf)
            · rw [List.mem_singleton.1 hf, hlast]
              exact List.sublist_append_right _ _
      | enter => exact ⟨h.rows, hknown⟩
      | read => exact ⟨h.rows, hknown⟩
      | refuse => exact ⟨h.rows, hknown⟩
      | accept => exact ⟨h.rows, hknown⟩
      | deny => exact ⟨h.rows, hknown⟩
      | fail => exact ⟨h.rows, hknown⟩
      | issue => exact ⟨h.rows, hknown⟩
      | validate => exact ⟨h.rows, hknown⟩
    have hwnow : (watch crypto w op).auth.now = w.auth.now := hnow
    have hwrows : (watch crypto w op).auth.loginFailures = failures := hfailures
    refine ⟨?_, ?_, ?_, ?_⟩
    · rw [hpast]
      refine List.pairwise_append.2 ⟨h.sorted, ?_, fun a ha b hb' => ?_⟩
      · cases event with
        | none => exact List.Pairwise.nil
        | some e => exact List.pairwise_singleton _ _
      · rw [htime b hb']
        exact h.past a ha
    · rw [hpast, hwnow]
      intro e he
      rcases List.mem_append.1 he with he | he
      · exact h.past e he
      · exact (htime e he).le
    · rw [hwrows]
      exact hrows.1
    · rw [hwrows, hpast]
      exact hrows.2

end Traces

/-! ## Runs without a crowd -/

/-- The table holds every recent failure since the last accepted credential; a login that
passed the check finds fewer than five; and no window without an accepted credential has more
than five. -/
structure Exact {κ : Type} (w : Watched κ) : Prop where
  rows : ∀ peer, inWindow w.auth.now (rowOf peer w.auth.loginFailures) =
    inWindow w.auth.now (openFailures peer w.past)
  checked : ∀ (i : ℕ) (l : Login κ), w.auth.logins[i]? = some l → l.stage.checked = true →
    (inWindow w.auth.now (openFailures l.peer w.past)).length < maxLoginFailures
  windows : ∀ peer start,
    (∀ t, Event.accepted peer t ∈ w.past → start ≤ t → ¬ t < start + loginWindow) →
      (windowAt start (failuresOf peer w.past)).length ≤ maxLoginFailures

section Exactness

variable {κ : Type} {w : Watched κ} {auth : InstanceAuth κ} {i : ℕ} {l : Login κ} {stage : Stage κ}
  {gate : Option ℕ} {failures : List LoginFailures} {event : Option Event} {peer : String}

theorem checked_holding {stage : Stage κ} (h : stage.checked = true) : stage.holding = true := by
  cases stage <;> first | rfl | cases h

/-- A section leaves the rows in step with the history. -/
theorem Section.rows_eq (h : w.auth.Section i l stage gate failures event) (ht : Traced w)
    (hcrowd : w.crowded = false) (hrows : inWindow w.auth.now (rowOf peer w.auth.loginFailures) =
      inWindow w.auth.now (openFailures peer w.past)) :
    inWindow w.auth.now (rowOf peer failures) =
      inWindow w.auth.now (openFailures peer (w.past ++ event.toList)) := by
  have hroom := ht.room hcrowd
  have hrecent : rowOf peer w.auth.recentFailures =
      inWindow w.auth.now (openFailures peer w.past) := by
    rw [InstanceAuth.rowOf_recentFailures ht.rows, hrows]
  cases h with
  | pass =>
    rw [Option.toList_none, List.append_nil, hrecent, inWindow_inWindow le_rfl]
  | reject =>
    rw [Option.toList_none, List.append_nil, hrecent, inWindow_inWindow le_rfl]
  | forget =>
    rw [Option.toList_some, openFailures_accepted, rowOf_filter]
    split
    · rfl
    · exact hrows
  | record =>
    have hrow : rowOf peer (w.auth.recordFailure l.peer).loginFailures =
        if l.peer = peer then rowOf peer w.auth.recentFailures ++ [w.auth.now]
        else rowOf peer w.auth.recentFailures := by
      rcases InstanceAuth.recordFailure_cases hroom.le l.peer with
        ⟨hknown, heq⟩ | ⟨kept, -, -, hnew, hkept, heq⟩
      · rw [heq, rowOf_modify hknown]
      · obtain rfl := hkept hroom
        rw [heq, rowOf_append_new hnew]
        by_cases hp : l.peer = peer
        · rw [if_pos hp, if_pos hp, rowOf_of_notMem (hp ▸ hnew), List.nil_append]
        · rw [if_neg hp, if_neg hp]
    rw [hrow, Option.toList_some, openFailures_failed, hrecent]
    split
    · rw [inWindow_append, inWindow_append, inWindow_inWindow le_rfl]
    · rw [inWindow_inWindow le_rfl]
  | issue =>
    rw [Option.toList_some, openFailures_succeeded]
    exact hrows
  | enter => simpa using hrows
  | read => simpa using hrows
  | refuse => simpa using hrows
  | accept => simpa using hrows
  | deny => simpa using hrows
  | fail => simpa using hrows
  | validate => simpa using hrows

/-- A login comes to be checked through the check only, and stays so without an event. -/
theorem Section.checked_cases (h : auth.Section i l stage gate failures event)
    (hstage : stage.checked = true) :
    (event = none ∧ l.stage.checked = true) ∨
      (event = none ∧ (auth.checkThrottle l.peer).2 = none) := by
  cases h with
  | pass _ hcheck => exact .inr ⟨rfl, hcheck⟩
  | read v epoch hold => exact .inl ⟨rfl, by rw [hold]; rfl⟩
  | deny v epoch hold => exact .inl ⟨rfl, by rw [hold]; rfl⟩
  | issue epoch token csrf =>
    cases hd : l.desktop <;> simp [hd, Stage.checked] at hstage
  | enter => cases hstage
  | reject => cases hstage
  | refuse => cases hstage
  | accept => cases hstage
  | forget => cases hstage
  | record => cases hstage
  | fail => cases hstage
  | validate => cases hstage

/-- An event is the work of a login past the gate. -/
theorem Section.event_cases (h : auth.Section i l stage gate failures event) :
    event = none ∨
      (∃ e, event = some e ∧ l.stage.holding = true ∧ ∀ peer, e.failure? peer = none) ∨
      (event = some (.failed l.peer auth.now) ∧ l.stage.checked = true) := by
  cases h with
  | forget epoch hold => exact .inr (.inl ⟨_, rfl, by rw [hold]; rfl, fun _ => rfl⟩)
  | issue epoch token csrf hold => exact .inr (.inl ⟨_, rfl, by rw [hold]; rfl, fun _ => rfl⟩)
  | record hold => exact .inr (.inr ⟨rfl, by rw [hold]; rfl⟩)
  | enter => exact .inl rfl
  | pass => exact .inl rfl
  | reject => exact .inl rfl
  | read => exact .inl rfl
  | refuse => exact .inl rfl
  | accept => exact .inl rfl
  | deny => exact .inl rfl
  | fail => exact .inl rfl
  | validate => exact .inl rfl

/-- The window bound survives a section. -/
theorem Section.windows (h : w.auth.Section i l stage gate failures event) (ht : Traced w)
    (he : Exact w) (hl : w.auth.logins[i]? = some l) {start : ℕ}
    (hnone : ∀ t, Event.accepted peer t ∈ w.past ++ event.toList → start ≤ t →
      ¬ t < start + loginWindow) :
    (windowAt start (failuresOf peer (w.past ++ event.toList))).length ≤ maxLoginFailures := by
  have hpast : ∀ t, Event.accepted peer t ∈ w.past → start ≤ t → ¬ t < start + loginWindow :=
    fun t hmem => hnone t (List.mem_append_left _ hmem)
  have hold := he.windows peer start hpast
  rcases Section.event_cases h with rfl | ⟨e, rfl, -, hfail⟩ | ⟨rfl, hchecked⟩
  · rwa [Option.toList_none, List.append_nil]
  · rwa [Option.toList_some, failuresOf_concat, hfail, Option.toList_none, List.append_nil]
  · rw [Option.toList_some, failuresOf_concat, Event.failure?]
    by_cases hp : l.peer = peer
    · subst hp
      rw [if_pos rfl, Option.toList_some, windowAt, List.filter_append, List.length_append]
      by_cases hnow : w.auth.now < start + loginWindow
      · -- the failures of the window so far are those the check counted
        have hlt := (length_windowAt_le hnow ht.sorted ht.past hpast).trans_lt
          (he.checked i l hl hchecked)
        have hone := List.length_filter_le
          (fun at_ => decide (start ≤ at_ ∧ at_ < start + loginWindow)) [w.auth.now]
        exact Nat.le_trans (Nat.add_le_add_left hone _) hlt
      · rw [List.filter_cons_of_neg (by simpa using fun _ => not_lt.1 hnow)]
        exact hold
    · rwa [if_neg hp, Option.toList_none, List.append_nil]

variable [DecidableEq κ] {crypto : Crypto κ}

theorem watch_exact (ht : Traced w) (hserial : w.auth.Serial) (he : Exact w)
    (hcrowd : w.crowded = false) (op : Op) : Exact (watch crypto w op) := by
  rcases InstanceAuth.step_cases crypto w.auth op with
    ⟨hidle, hevent⟩ | ⟨i, l, stage, gate, failures, event, hl, hsec, hlogins, -, hfailures,
      hnow, hevent⟩
  · have hpast : (watch crypto w op).past = w.past := by
      show w.past ++ (w.auth.event op).toList = w.past
      rw [hevent, Option.toList_none, List.append_nil]
    have hrows : (watch crypto w op).auth.loginFailures = w.auth.loginFailures := hidle.failures
    have hmono : w.auth.now ≤ (watch crypto w op).auth.now := hidle.now
    refine ⟨fun peer => ?_, fun i l hl hchecked => ?_, ?_⟩
    · rw [hpast, hrows, ← inWindow_inWindow hmono, he.rows, inWindow_inWindow hmono]
    · rw [hpast]
      rcases hidle.logins i l hl with hold | hqueued
      · exact (length_inWindow_anti hmono).trans_lt (he.checked i l hold hchecked)
      · rw [hqueued] at hchecked
        cases hchecked
    · rw [hpast]
      exact he.windows
  · have hpast : (watch crypto w op).past = w.past ++ event.toList := by
      show w.past ++ (w.auth.event op).toList = _
      rw [hevent]
    have hwnow : (watch crypto w op).auth.now = w.auth.now := hnow
    have hwrows : (watch crypto w op).auth.loginFailures = failures := hfailures
    refine ⟨fun peer => ?_, fun j l' hl' hchecked => ?_, fun peer start hnone => ?_⟩
    · rw [hwnow, hwrows, hpast]
      exact Section.rows_eq hsec ht hcrowd (he.rows peer)
    · have hlogins' : (watch crypto w op).auth.logins =
        w.auth.logins.set i { l with stage := stage } :=
        hlogins
      rw [hlogins', List.getElem?_set] at hl'
      rw [hwnow, hpast]
      by_cases hij : i = j
      · rw [if_pos hij, if_pos (List.getElem?_eq_some_iff.1 hl).1] at hl'
        obtain rfl := Option.some.inj hl'
        rcases Section.checked_cases hsec hchecked with ⟨rfl, hold⟩ | ⟨rfl, hcheck⟩
        · rw [Option.toList_none, List.append_nil]
          exact he.checked i l hl hold
        · rw [Option.toList_none, List.append_nil, ← he.rows,
            ← InstanceAuth.rowOf_recentFailures ht.rows]
          exact (InstanceAuth.checkThrottle_none_iff _).1 hcheck
      · rw [if_neg hij] at hl'
        -- the other login holds the gate, so this section has no event
        have hholds := checked_holding hchecked
        have hquiet : event = none := by
          rcases Section.event_cases hsec with hnone | ⟨e, -, hhold, -⟩ | ⟨-, hcheck⟩
          · exact hnone
          · exact absurd (hserial.unique hl hhold hl' hholds).symm hij
          · exact absurd (hserial.unique hl (checked_holding hcheck) hl' hholds).symm hij
        rw [hquiet, Option.toList_none, List.append_nil]
        exact he.checked j l' hl' hchecked
    · rw [hpast] at hnone ⊢
      exact Section.windows hsec ht he hl hnone

end Exactness

/-! ## Runs -/

section Runs

variable {κ : Type} [DecidableEq κ] {crypto : Crypto κ} {w : Watched κ}

/-- What holds in every run. -/
structure Sound (w : Watched κ) : Prop where
  bounded : w.auth.Bounded
  serial : w.auth.Serial
  traced : Traced w

omit [DecidableEq κ] in
theorem Sound.load (effectiveEnabled : Bool) (passwordHash : Option String) (token : String) :
    Sound (⟨.load effectiveEnabled passwordHash token, []⟩ : Watched κ) where
  bounded := ⟨Nat.zero_le _, Nat.zero_le _⟩
  serial i l hl _ := by cases hl
  traced := by
    refine ⟨List.Pairwise.nil, fun e he => ?_, List.nodup_nil, fun f hf => ?_⟩
    · cases he
    · cases hf

theorem watch_sound (h : Sound w) (op : Op) : Sound (watch crypto w op) where
  bounded := InstanceAuth.step_bounded h.bounded op
  serial := InstanceAuth.step_serial h.serial op
  traced := watch_traced h.traced h.bounded op

omit [DecidableEq κ] in
theorem Exact.load (effectiveEnabled : Bool) (passwordHash : Option String) (token : String) :
    Exact (⟨.load effectiveEnabled passwordHash token, []⟩ : Watched κ) where
  rows _ := rfl
  checked i l hl _ := by cases hl
  windows _ _ _ := Nat.zero_le _

/-- A login that a step refuses has as many recent failures as are allowed. -/
theorem rejected_failures (h : Sound w) {op : Op} {i : ℕ} {l l' : Login κ} {seconds : ℕ}
    (hl : w.auth.logins[i]? = some l) (hl' : (step crypto w.auth op).logins[i]? = some l')
    (hnew : l'.stage ≠ l.stage) (hstage : l'.stage = .failed (.rateLimited seconds)) :
    maxLoginFailures ≤ (inWindow w.auth.now (failuresOf l.peer w.past)).length := by
  rcases InstanceAuth.step_cases crypto w.auth op with
    ⟨hidle, -⟩ | ⟨j, k, stage, gate, failures, event, hk, hsec, hlogins, -⟩
  · rcases hidle.logins i l' hl' with hold | hqueued
    · rw [hl] at hold
      exact absurd (congrArg Login.stage (Option.some.inj hold)).symm hnew
    · rw [hqueued] at hstage
      cases hstage
  · rw [hlogins, List.getElem?_set] at hl'
    by_cases hij : j = i
    · subst hij
      rw [if_pos rfl, if_pos (List.getElem?_eq_some_iff.1 hk).1] at hl'
      obtain rfl := Option.some.inj (hl.symm.trans hk)
      obtain rfl := Option.some.inj hl'
      cases hsec with
      | reject error _ hcheck =>
        refine le_trans (not_lt.1 fun hlt => ?_) (h.traced.length_rowOf_le l.peer)
        rw [(InstanceAuth.checkThrottle_none_iff l.peer).2 hlt] at hcheck
        cases hcheck
      | refuse error _ herror =>
        rcases herror with rfl | rfl <;> cases hstage
      | issue =>
        cases hd : l.desktop <;> simp [hd] at hstage
      | enter => cases hstage
      | pass => cases hstage
      | read => cases hstage
      | accept => cases hstage
      | deny => cases hstage
      | forget => cases hstage
      | record => cases hstage
      | fail => cases hstage
      | validate => cases hstage
    · rw [if_neg hij, hl] at hl'
      exact absurd (congrArg Login.stage (Option.some.inj hl')).symm hnew

end Runs

/-- **The throttle bounds guessing.**  After every run, the table of failing peers and the
table of sessions are within their bounds; if there was never a crowd, no window in which no
credential of a peer was accepted has more than five of its failures; and a login that the
next step refuses as rate-limited is of a peer with five failures in the window that ends
then. -/
theorem throttle_bounds_guessing {κ : Type} [DecidableEq κ] (crypto : Crypto κ)
    (effectiveEnabled : Bool) (passwordHash : Option String) (token : String) (ops : List Op) :
    let start : Watched κ := ⟨.load effectiveEnabled passwordHash token, []⟩
    let w := runOps (watch crypto) start ops
    w.auth.loginFailures.length ≤ maxTrackedLoginPeers ∧
    w.auth.sessions.length ≤ maxBrowserSessions ∧
    (Along (watch crypto) (fun w _ => w.crowded = false) start ops → ∀ peer from_,
      (∀ t, Event.accepted peer t ∈ w.past → from_ ≤ t → ¬ t < from_ + loginWindow) →
        (windowAt from_ (failuresOf peer w.past)).length ≤ maxLoginFailures) ∧
    (∀ (op : Op) (i : ℕ) (l l' : Login κ) (seconds : ℕ), w.auth.logins[i]? = some l →
      (step crypto w.auth op).logins[i]? = some l' → l'.stage ≠ l.stage →
      l'.stage = .failed (.rateLimited seconds) →
        maxLoginFailures ≤ (inWindow w.auth.now (failuresOf l.peer w.past)).length) := by
  intro start w
  have hstart : Sound start := .load effectiveEnabled passwordHash token
  have hsound : Sound w := runOps_invariant (I := Sound) (fun _ op h => watch_sound h op) hstart ops
  refine ⟨hsound.bounded.failures, hsound.bounded.sessions, fun hcalm peer from_ hnone => ?_,
    fun op i l l' seconds hl hl' hnew hstage => rejected_failures hsound hl hl' hnew hstage⟩
  have hboth := hcalm.invariant (I := fun w => Sound w ∧ Exact w)
    (fun _ op h hcrowd => ⟨watch_sound h.1 op, watch_exact h.1.traced h.1.serial h.2 hcrowd op⟩)
    ⟨.load effectiveEnabled passwordHash token, .load effectiveEnabled passwordHash token⟩
  exact hboth.2.windows peer from_ hnone

/-- A login that goes through its sections, with a generator that fails. -/
def attempt (i : ℕ) (credential : String) : List Op :=
  .login credential "peer" false :: List.replicate 6 (.advanceLogin i true none)

/-- Four wrong guesses, the right credential while no secret can be generated, and four wrong
guesses again. -/
def internalError : List Op :=
  (List.range 4).flatMap (attempt · "wrong") ++ attempt 4 "right" ++
    (List.range 4).flatMap fun i => attempt (5 + i) "wrong"

/-- The failures are forgotten although that login does not succeed. -/
theorem internalError_forgets :
    let start : Watched String := ⟨.load true (some "right") "", []⟩
    let w := runOps (watch plain) start internalError
    Along (watch plain) (fun w _ => w.crowded = false) start internalError ∧
    w.auth.logins.map Login.stage = List.replicate 4 (.failed .invalid) ++
      .failed .internal :: List.replicate 4 (.failed .invalid) ∧
    (w.past.filter fun e => e.failure? "peer" = none) = [.accepted "peer" 0] ∧
    (windowAt 0 (failuresOf "peer" w.past)).length = 8 := by
  decide +kernel

end XpressClaw.Server
