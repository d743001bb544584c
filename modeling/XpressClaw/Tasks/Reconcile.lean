import XpressClaw.Tasks.Settlement

/-!
# Reconciling twice

A second reconciliation has nothing to report, and the statement that shares reports inserts
what is there already.  What it may still do is retire: the first one computes its reports from
one snapshot, and a task that it wakes no longer counts as a finished child, so that a response
which was queued for the parent of that task may be obsolete at once.

* `Db.Awakening`, `deliverAll_awakening` — which responses the deliveries queue.
* `mem_outcomes` — which outcomes are left after the deliveries.
* `Db.Lasting` — every response that waits, or is about to be queued, is for an outcome of a
  child that is not woken itself.
* `reconcile_twice` — the second run changes nothing exactly then; and whatever happens, nothing
  is told twice.
-/

namespace XpressClaw.Tasks

open Lib

namespace Db

variable {db db' db'' : Db}

/-! ## Shared responses -/

/-- The queue row may serve the notifications of a task. -/
def shareable (db : Db) (taskId agentId : String) (q : QueueItem) : Bool :=
  q.taskId = taskId && q.agentId = agentId && q.status = .queued &&
    (db.attemptOf q).any (fun a => a.sessionId = agentId && a.status = .queued) &&
    !db.workflowOwned q.attemptId

theorem sharedResponse_isSome {taskId agentId : String} :
    (db.sharedResponse taskId agentId).isSome ↔
      ∃ q ∈ db.queue, db.shareable taskId agentId q = true := by
  have hfilter : db.sharedResponse taskId agentId =
      (db.queue.filter (db.shareable taskId agentId)).getLast?.bind (·.attemptId) := rfl
  rw [hfilter]
  constructor
  · intro h
    cases hl : (db.queue.filter (db.shareable taskId agentId)).getLast? with
    | none =>
      rw [hl] at h
      cases h
    | some q =>
      obtain ⟨hq, hshare⟩ := List.mem_filter.1 (List.mem_of_getLast? hl)
      exact ⟨q, hq, hshare⟩
  · rintro ⟨q, hq, hshare⟩
    cases hl : (db.queue.filter (db.shareable taskId agentId)).getLast? with
    | none =>
      have hnil := List.getLast?_eq_none_iff.1 hl
      have hmem := List.mem_filter.2 ⟨hq, hshare⟩
      rw [hnil] at hmem
      cases hmem
    | some q' =>
      have hshare' := (List.mem_filter.1 (List.mem_of_getLast? hl)).2
      simp only [shareable, Bool.and_eq_true, Option.any_eq_true, attemptOf] at hshare'
      obtain ⟨⟨⟨⟨-, -⟩, -⟩, a, ha, -⟩, -⟩ := hshare'
      obtain ⟨i, hi, -⟩ := Option.bind_eq_some_iff.1 ha
      rw [Option.bind_some, hi]
      rfl

/-- A row that was there before a change of the triggers is shareable as before. -/
theorem shareable_of_rows {g : WorkAttempt → WorkAttempt} {more : List WorkAttempt}
    (hs : db.Schema) (hg : Retriggers g) (ha : db'.attempts = db.attempts.map g ++ more)
    (he : db'.executions = db.executions) {q : QueueItem} (hq : q ∈ db.queue)
    (taskId agentId : String) :
    db'.shareable taskId agentId q = db.shareable taskId agentId q := by
  have hattempt : (db'.attemptOf q).map (fun a => (a.sessionId, a.status)) =
      (db.attemptOf q).map fun a => (a.sessionId, a.status) := by
    unfold attemptOf
    cases hi : q.attemptId with
    | none => rfl
    | some i =>
      obtain ⟨a, hmem, rfl, -⟩ := hs.links q hq i hi
      have hold := hs.attempt?_of_mem hmem
      have hnew : db'.attempt? a.id = some (g a) := by
        rw [attempt?, ha]
        refine Table.get_append_of_some ?_
        rw [Table.get_map hg.id]
        exact congrArg (Option.map g) hold
      simp [hold, hnew, hg.sessionId, hg.status]
  have hany : (db'.attemptOf q).any (fun a => a.sessionId = agentId && a.status = .queued) =
      (db.attemptOf q).any fun a => a.sessionId = agentId && a.status = .queued := by
    have hpair := congrArg (fun r : Option (String × AttemptStatus) =>
      r.any fun p => p.1 = agentId && p.2 = .queued) hattempt
    simpa [Option.any_map, Function.comp_def] using hpair
  unfold shareable
  rw [hany, workflowOwned, workflowOwned, he]

theorem workflowOwned_new (hs : db.Schema) {i : ℕ} (hi : db.nextAttemptId ≤ i) :
    db.workflowOwned (some i) = false := by
  rw [workflowOwned, Option.any_some, List.any_eq_false]
  intro e he hown
  obtain ⟨a, ha, hid⟩ := hs.continuations e he i (by simpa using hown)
  have hlt := hs.attemptIds a ha
  omega

/-- After a delivery the parent has a response that further reports share. -/
theorem Delivery.shared {o : Outcome} {status : TaskStatus} {owner : String} (hs : db.Schema)
    (hs' : db'.Schema) (h : Delivery o status owner db db') (taskId agentId : String) :
    (db'.sharedResponse taskId agentId).isSome ↔
      (db.sharedResponse taskId agentId).isSome ∨ taskId = o.parentId ∧ agentId = owner := by
  rw [sharedResponse_isSome, sharedResponse_isSome]
  rcases h.rows with ⟨g, hg, hsome, hq, ha, -⟩ | ⟨g, q, a, hg, -, hq, ha, -, hnew, hid⟩
  · have hrows : db'.attempts = db.attempts.map g ++ [] := by rw [ha, List.append_nil]
    have hold {q : QueueItem} (hmem : q ∈ db.queue) (t w : String) :
        db'.shareable t w q = db.shareable t w q :=
      shareable_of_rows hs hg hrows h.executions hmem t w
    rw [hq]
    constructor
    · rintro ⟨q, hmem, hshare⟩
      exact Or.inl ⟨q, hmem, (hold hmem _ _).symm.trans hshare⟩
    · rintro (⟨q, hmem, hshare⟩ | ⟨rfl, rfl⟩)
      · exact ⟨q, hmem, (hold hmem _ _).trans hshare⟩
      · obtain ⟨q, hmem, hshare⟩ := sharedResponse_isSome.1 hsome
        exact ⟨q, hmem, (hold hmem _ _).trans hshare⟩
  · have hold {q : QueueItem} (hmem : q ∈ db.queue) (t w : String) :
        db'.shareable t w q = db.shareable t w q :=
      shareable_of_rows hs hg ha h.executions hmem t w
    have hfound : db'.attempt? a.id = some a := by
      refine hs'.attempt?_of_mem ?_
      rw [ha]
      simp
    have howned : db'.workflowOwned (some a.id) = false := by
      rw [workflowOwned, h.executions]
      exact workflowOwned_new hs hid.ge
    obtain ⟨⟨hqt, hqa, hqs, hqi⟩, -, has, hst, -, -⟩ := hnew
    rw [hq]
    constructor
    · rintro ⟨q', hmem, hshare⟩
      rcases List.mem_append.1 hmem with hmem | hmem
      · exact Or.inl ⟨q', hmem, (hold hmem _ _).symm.trans hshare⟩
      · obtain rfl := List.mem_singleton.1 hmem
        simp only [shareable, Bool.and_eq_true, decide_eq_true_eq] at hshare
        exact Or.inr ⟨hshare.1.1.1.1.symm.trans hqt, hshare.1.1.1.2.symm.trans hqa⟩
    · rintro (⟨q', hmem, hshare⟩ | ⟨rfl, rfl⟩)
      · exact ⟨q', List.mem_append_left _ hmem, (hold hmem _ _).trans hshare⟩
      · refine ⟨q, by simp, ?_⟩
        simp [shareable, hqt, hqa, hqs, attemptOf, hqi, hfound, has, hst, howned]

/-! ## New responses -/

theorem NewResponse.retrigger {taskId agentId : String} {q : QueueItem} {a : WorkAttempt}
    {g : WorkAttempt → WorkAttempt} (hg : Retriggers g) (h : NewResponse taskId agentId q a) :
    NewResponse taskId agentId q (g a) := by
  obtain ⟨⟨hq, hqa, hqs, hqi⟩, hat, has, hst, hstarted, hcontainer⟩ := h
  exact ⟨⟨hq, hqa, hqs, hqi.trans (congrArg some (hg.id a).symm)⟩, (hg.taskId a).trans hat,
    (hg.sessionId a).trans has, (hg.status a).trans hst, (hg.startedAt a).trans hstarted,
    (hg.containerId a).trans hcontainer⟩

theorem Retriggers.comp {g g' : WorkAttempt → WorkAttempt} (hg : Retriggers g)
    (hg' : Retriggers g') : Retriggers (g' ∘ g) := by
  intro a
  obtain ⟨m, hm⟩ := hg a
  obtain ⟨m', hm'⟩ := hg' (g a)
  exact ⟨m', by rw [Function.comp_apply, hm', hm]⟩

/-- The responses that deliveries queue: one for each parent that has none to share. -/
structure Awakening (reports : List (Outcome × TaskStatus × String)) (db db' : Db)
    (g : WorkAttempt → WorkAttempt) (new : List (QueueItem × WorkAttempt)) : Prop where
  triggers : Retriggers g
  queue : db'.queue = db.queue ++ new.map (·.1)
  attempts : db'.attempts = db.attempts.map g ++ new.map (·.2)
  automatic : db'.automaticResponses = db.automaticResponses ++ new.map (·.2.id)
  next : db.nextAttemptId ≤ db'.nextAttemptId
  fresh : ∀ p ∈ new, db.nextAttemptId ≤ p.2.id
  reported : ∀ p ∈ new, ∃ r ∈ reports, NewResponse r.1.parentId r.2.2 p.1 p.2 ∧
    db.sharedResponse r.1.parentId r.2.2 = none
  woken : ∀ r ∈ reports, db.sharedResponse r.1.parentId r.2.2 = none →
    ∃ p ∈ new, NewResponse r.1.parentId r.2.2 p.1 p.2

theorem Delivery.awakening {o : Outcome} {status : TaskStatus} {owner : String}
    {reports : List (Outcome × TaskStatus × String)} {g : WorkAttempt → WorkAttempt}
    {new : List (QueueItem × WorkAttempt)} (hs : db.Schema) (hs' : db'.Schema)
    (h : Delivery o status owner db db') (ha : Awakening reports db' db'' g new) :
    ∃ g' new', Awakening ((o, status, owner) :: reports) db db'' g' new' := by
  have hnone {t w : String} : db'.sharedResponse t w = none ↔
      db.sharedResponse t w = none ∧ ¬(t = o.parentId ∧ w = owner) := by
    have hiff := h.shared hs hs' t w
    rw [← Option.not_isSome_iff_eq_none, ← Option.not_isSome_iff_eq_none, hiff, not_or]
  have hnext := h.next
  rcases h.rows with ⟨g₁, hg, hsome, hq, hrows, hauto⟩ |
    ⟨g₁, q, a, hg, hfree, hq, hrows, hauto, hnew, hid⟩
  · refine ⟨g ∘ g₁, new, hg.comp ha.triggers, by rw [ha.queue, hq],
      by rw [ha.attempts, hrows, List.map_map], by rw [ha.automatic, hauto],
      hnext.trans ha.next, fun p hp => hnext.trans (ha.fresh p hp), ?_, ?_⟩
    · intro p hp
      obtain ⟨r, hr, hresponse, hfree⟩ := ha.reported p hp
      exact ⟨r, List.mem_cons_of_mem _ hr, hresponse, (hnone.1 hfree).1⟩
    · intro r hr hfree
      rcases List.mem_cons.1 hr with rfl | hr
      · rw [hfree] at hsome
        cases hsome
      · refine ha.woken r hr (hnone.2 ⟨hfree, fun hsame => ?_⟩)
        rw [hsame.1, hsame.2] at hfree
        rw [hfree] at hsome
        cases hsome
  · refine ⟨g ∘ g₁, (q, g a) :: new, hg.comp ha.triggers, ?_, ?_, ?_, hnext.trans ha.next, ?_, ?_,
      ?_⟩
    · rw [ha.queue, hq]
      simp
    · rw [ha.attempts, hrows, List.map_append, List.map_map]
      simp
    · rw [ha.automatic, hauto, List.map_cons, ha.triggers.id]
      simp
    · intro p hp
      rcases List.mem_cons.1 hp with rfl | hp
      · exact (ha.triggers.id a).ge.trans' hid.ge
      · exact hnext.trans (ha.fresh p hp)
    · intro p hp
      rcases List.mem_cons.1 hp with rfl | hp
      · exact ⟨(o, status, owner), List.mem_cons_self, hnew.retrigger ha.triggers, hfree⟩
      · obtain ⟨r, hr, hresponse, hnone'⟩ := ha.reported p hp
        exact ⟨r, List.mem_cons_of_mem _ hr, hresponse, (hnone.1 hnone').1⟩
    · intro r hr hnone'
      by_cases hsame : r.1.parentId = o.parentId ∧ r.2.2 = owner
      · refine ⟨(q, g a), List.mem_cons_self, ?_⟩
        rw [hsame.1, hsame.2]
        exact hnew.retrigger ha.triggers
      · rcases List.mem_cons.1 hr with rfl | hr
        · exact absurd ⟨rfl, rfl⟩ hsame
        · obtain ⟨p, hp, hresponse⟩ := ha.woken r hr (hnone.2 ⟨hnone', hsame⟩)
          exact ⟨p, List.mem_cons_of_mem _ hp, hresponse⟩

theorem deliverAll_awakening {now : ℤ} {reports : List (Outcome × TaskStatus × String)}
    (hs : db.Schema) (h : deliverAll now reports db = .ok ((), db')) :
    ∃ g new, Awakening reports db db' g new := by
  induction reports generalizing db with
  | nil =>
    cases h
    exact ⟨id, [], fun a => ⟨a.triggerMessageId, rfl⟩, by simp, by simp, by simp, le_rfl,
      by simp, by simp, by simp⟩
  | cons report reports ih =>
    obtain ⟨⟨_, db₁⟩, h1, h⟩ := bind_ok h
    have hs₁ := (deliver_calm _ _ _ now db hs _ _ h1).schema hs
    obtain ⟨g, new, ha⟩ := ih hs₁ h
    exact (deliver_delivery hs h1).awakening hs hs₁ ha

/-! ## Outcomes after the deliveries -/

/-- The parents that the deliveries wake. -/
def awakened (db : Db) : List String :=
  (db.reports.filter fun r => (db.sharedResponse r.1.parentId r.2.2).isNone).map (·.1.parentId)

theorem mem_awakened {c : String} : c ∈ db.awakened ↔
    ∃ r ∈ db.reports, db.sharedResponse r.1.parentId r.2.2 = none ∧ r.1.parentId = c := by
  simp [awakened, and_assoc]

variable {g : WorkAttempt → WorkAttempt} {new : List (QueueItem × WorkAttempt)}

theorem Awakening.turns (h : Awakening db.reports db db' g new) {c : String}
    (hc : c ∉ db.awakened) : db'.turns c = db.turns c := by
  have hnone : (new.map (·.2)).filter (fun a => decide (a.taskId = some c)) = [] := by
    rw [List.filter_eq_nil_iff]
    intro a ha htask
    obtain ⟨p, hp, rfl⟩ := List.mem_map.1 ha
    obtain ⟨r, hr, hresponse, hfree⟩ := h.reported p hp
    have hid := hresponse.attempt.1
    rw [of_decide_eq_true htask] at hid
    exact hc (mem_awakened.2 ⟨r, hr, hfree, (Option.some.inj hid).symm⟩)
  rw [Db.turns, h.attempts, List.filter_append, List.map_append, turns_map h.triggers, hnone,
    List.map_nil, List.append_nil, Db.turns]

theorem Awakening.report_eq_none (h : Awakening db.reports db db' g new) {child : Task}
    (hc : child.id ∈ db.awakened) : db'.report child = none := by
  obtain ⟨r, hr, hfree, hid⟩ := mem_awakened.1 hc
  obtain ⟨p, hp, hresponse⟩ := h.woken r hr hfree
  refine Db.report_eq_none ⟨turnOf p.2, ?_, hresponse.attempt.2.2.1⟩
  rw [Db.turns, h.attempts]
  refine List.mem_map_of_mem (List.mem_filter.2
    ⟨List.mem_append_right _ (List.mem_map_of_mem hp), ?_⟩)
  rw [hresponse.attempt.1, hid]
  simp

/-- The outcomes that are left are those of the children that are not woken. -/
theorem mem_outcomes (hd : Deliveries db.reports db db')
    (h : Awakening db.reports db db' g new) {o : Outcome} :
    o ∈ db'.outcomes ↔ o ∈ db.outcomes ∧ o.childId ∉ db.awakened := by
  have hchildId {t : Task} {d : Db} (hr : d.report t = some o) : o.childId = t.id := by
    unfold Db.report at hr
    split at hr
    · cases hr
    · split at hr <;> cases hr
      rfl
  constructor
  · intro ho
    obtain ⟨child, -, hr⟩ := List.mem_filterMap.1 (List.mem_filter.1 ho).1
    refine ⟨hd.outcomes ho, fun hmem => ?_⟩
    rw [hchildId hr] at hmem
    rw [h.report_eq_none hmem] at hr
    cases hr
  · rintro ⟨ho, hmem⟩
    obtain ⟨hin, hreviewed⟩ := List.mem_filter.1 ho
    obtain ⟨child, hchild, hr⟩ := List.mem_filterMap.1 hin
    rw [hchildId hr] at hmem
    refine List.mem_filter.2 ⟨List.mem_filterMap.2 ⟨child, hd.tasks ▸ hchild, ?_⟩, ?_⟩
    · rw [report_eq_of_turns (h.turns hmem)]
      exact hr
    · rw [hd.reviewed]
      exact hreviewed

/-! ## Grants after the deliveries -/

/-- Once the reports are delivered, a journal row tells the parent and its owner the current
outcome of a child that is not woken. -/
def told (db : Db) (taskId owner : String) : Prop :=
  ∃ o ∈ db.outcomes, o.parentId = taskId ∧ o.childId ∉ db.awakened ∧
    ∃ status ∈ o.outcome, (taskId, owner, o.childId, o.attemptId, status) ∈
      db.notifications.map noticeKey ++ db.reports.map reportKey

instance (taskId owner : String) : Decidable (db.told taskId owner) :=
  inferInstanceAs (Decidable (∃ o ∈ db.outcomes, _ ∧ _ ∧ ∃ status ∈ o.outcome, _))

/-- The journal has a current row for a parent and its owner. -/
def notified (db : Db) (taskId owner : String) : Prop :=
  ∃ n ∈ db.notifications, db.current n = true ∧ n.parentTaskId = taskId ∧ n.parentAgentId = owner

theorem notified_iff (hd : Deliveries db.reports db db')
    (h : Awakening db.reports db db' g new) {taskId owner : String} :
    db'.notified taskId owner ↔ db.told taskId owner := by
  obtain ⟨rows, hrows, hkeys, -⟩ := hd.journal
  have hjournal : db'.notifications.map noticeKey =
      db.notifications.map noticeKey ++ db.reports.map reportKey := by
    rw [hrows, List.map_append, hkeys]
  constructor
  · rintro ⟨n, hn, hcurrent, rfl, rfl⟩
    obtain ⟨o, ho, hsame⟩ := List.any_eq_true.1 hcurrent
    simp only [Bool.and_eq_true, decide_eq_true_eq] at hsame
    obtain ⟨⟨⟨hc, hp⟩, ha⟩, hs⟩ := hsame
    obtain ⟨hold, hsleeps⟩ := (mem_outcomes hd h).1 ho
    refine ⟨o, hold, hp, hsleeps, n.childStatus, hs, ?_⟩
    rw [← hjournal, hc, ha]
    exact List.mem_map_of_mem hn
  · rintro ⟨o, ho, hp, hsleeps, status, hs, hkey⟩
    rw [← hjournal] at hkey
    obtain ⟨n, hn, heq⟩ := List.mem_map.1 hkey
    simp only [noticeKey, Prod.mk.injEq] at heq
    obtain ⟨h1, h2, h3, h4, h5⟩ := heq
    refine ⟨n, hn, List.any_eq_true.2 ⟨o, (mem_outcomes hd h).2 ⟨ho, hsleeps⟩, ?_⟩, h1, h2⟩
    simp [h1, h3, h4, h5, hp, Option.mem_def.1 hs]

/-! ## Responses that may be retired -/

/-- An automatic response that has not started. -/
structure Waiting (db : Db) (q : QueueItem) (candidate : WorkAttempt) (t : Task) : Prop where
  automatic : candidate.id ∈ db.automaticResponses
  row : q ∈ db.queue ∧ q.attemptId = some candidate.id ∧ q.status = .queued
  attempt : db.attempt? candidate.id = some candidate ∧ candidate.status = .queued ∧
    candidate.startedAt = none ∧ candidate.containerId = none
  task : candidate.taskId = some q.taskId ∧ db.task? q.taskId = some t
  free : db.workflowOwned (some candidate.id) = false

theorem staleResponses_eq_nil : db.staleResponses none = [] ↔
    ∀ q candidate t, db.Waiting q candidate t →
      t.closed = false ∧ db.recoveryGrant q t candidate = true := by
  constructor
  · intro h q candidate t hw
    by_contra hstale
    have hmem : (candidate.id, q.id) ∈ db.staleResponses none := by
      refine List.mem_flatMap.2 ⟨candidate.id, hw.automatic, List.mem_map.2 ⟨q, ?_, rfl⟩⟩
      refine List.mem_filter.2 ⟨hw.row.1, ?_⟩
      have hold : t.closed = true ∨ db.recoveryGrant q t candidate = false := by
        cases hclosed : t.closed with
        | true => exact Or.inl rfl
        | false =>
          exact Or.inr (by simpa [hclosed] using hstale)
      simp [hw.row.2, hw.attempt, hw.task, hw.free, hold]
    rw [h] at hmem
    cases hmem
  · intro h
    rw [List.eq_nil_iff_forall_not_mem]
    rintro ⟨i, j⟩ hmem
    obtain ⟨ha, q, hq, -, hqi, hqs, candidate, hc, hcs, hst, hct, htask, hfree, t, ht, -, hstale⟩ :=
      mem_staleResponses hmem
    obtain ⟨-, rfl⟩ := attempt?_mem hc
    obtain ⟨hopen, hgrant⟩ :=
      h q candidate t ⟨ha, ⟨hq, hqi, hqs⟩, ⟨hc, hcs, hst, hct⟩, ⟨htask, ht⟩, hfree⟩
    rcases hstale with hclosed | hnone
    · rw [hopen] at hclosed
      cases hclosed
    · rw [hgrant] at hnone
      cases hnone

theorem mem_insertAll {rows added : List DelegationResponse} {r : DelegationResponse} :
    r ∈ added.foldl (fun rows r => if r ∈ rows then rows else rows ++ [r]) rows ↔
      r ∈ rows ∨ r ∈ added := by
  induction added generalizing rows with
  | nil => simp
  | cons a added ih =>
    rw [List.foldl_cons, ih]
    by_cases ha : a ∈ rows
    · rw [if_pos ha, List.mem_cons]
      constructor
      · exact fun h => h.imp_right Or.inr
      · rintro (h | rfl | h)
        · exact Or.inl h
        · exact Or.inl ha
        · exact Or.inr h
    · rw [if_neg ha, List.mem_append, List.mem_singleton, List.mem_cons, or_assoc]

theorem insertAll_eq {rows added : List DelegationResponse} (h : ∀ r ∈ added, r ∈ rows) :
    added.foldl (fun rows r => if r ∈ rows then rows else rows ++ [r]) rows = rows := by
  induction added with
  | nil => rfl
  | cons a added ih =>
    rw [List.foldl_cons, if_pos (h a List.mem_cons_self)]
    exact ih fun r hr => h r (List.mem_cons_of_mem _ hr)

theorem mem_sharedReports {r : DelegationResponse} : r ∈ db.sharedReports ↔
    ∃ n ∈ db.notifications, ∃ q ∈ db.queue, db.current n = true ∧
      db.shareable n.parentTaskId n.parentAgentId q = true ∧
      (db.task? n.parentTaskId).any (fun t => t.agentId = some n.parentAgentId && !t.closed &&
        !db.connected t.id) = true ∧ q.attemptId = some r.responseAttemptId ∧
      r.notificationId = n.id := by
  simp only [sharedReports, List.mem_flatMap, List.mem_filterMap, List.mem_filter, shareable,
    Bool.and_eq_true, decide_eq_true_eq, Option.map_eq_some_iff]
  constructor
  · rintro ⟨n, hn, q, ⟨hq, ⟨⟨⟨⟨⟨hc, ht⟩, ha⟩, hs⟩, htask⟩, hat⟩, hw⟩, i, hi, rfl⟩
    exact ⟨n, hn, q, hq, hc, ⟨⟨⟨⟨ht, ha⟩, hs⟩, hat⟩, hw⟩, htask, hi, rfl⟩
  · rintro ⟨n, hn, q, hq, hc, ⟨⟨⟨⟨ht, ha⟩, hs⟩, hat⟩, hw⟩, htask, hi, hid⟩
    exact ⟨n, hn, q, ⟨hq, ⟨⟨⟨⟨⟨hc, ht⟩, ha⟩, hs⟩, htask⟩, hat⟩, hw⟩, r.responseAttemptId, hi,
      by rw [← hid]⟩

theorem shareReports_twice : db.shareReports.shareReports = db.shareReports := by
  have hsame : db.shareReports.sharedReports = db.sharedReports := rfl
  have hrows : ∀ r ∈ db.shareReports.sharedReports, r ∈ db.shareReports.responses :=
    fun r hr => mem_insertAll.2 (Or.inr (hsame ▸ hr))
  conv_lhs => rw [shareReports, insertAll_eq hrows]

/-- The grant of a response that waits, after reports have been shared. -/
theorem recoveryGrant_iff {q : QueueItem} {candidate : WorkAttempt} {t : Task}
    (hw : db.shareReports.Waiting q candidate t) (hopen : t.closed = false) :
    db.shareReports.recoveryGrant q t candidate = true ↔
      t.agentId = some q.agentId ∧ candidate.sessionId = q.agentId ∧
        db.connected t.id = false ∧ db.notified t.id q.agentId := by
  have hid : t.id = q.taskId := Table.key_of_get hw.task.2
  constructor
  · intro h
    obtain ⟨n, hn, hgrant⟩ := List.any_eq_true.1 h
    simp only [Bool.and_eq_true, decide_eq_true_eq, Bool.not_eq_true'] at hgrant
    obtain ⟨⟨⟨⟨⟨⟨-, hc⟩, hp⟩, ha⟩, hpa⟩, hs⟩, hfree⟩ := hgrant
    exact ⟨ha, hs, hfree, n, hn, hc, hp, hpa⟩
  · rintro ⟨ha, hs, hfree, n, hn, hc, hp, hpa⟩
    have htask : db.task? n.parentTaskId = some t := by
      rw [hp, hid]
      exact hw.task.2
    have hattempt : db.attempt? candidate.id = some candidate := hw.attempt.1
    have howned : db.workflowOwned (some candidate.id) = false := hw.free
    have hshared : (⟨candidate.id, n.id⟩ : DelegationResponse) ∈ db.shareReports.responses := by
      refine mem_insertAll.2 (Or.inr (mem_sharedReports.2 ⟨n, hn, q, hw.row.1, hc, ?_, ?_,
        hw.row.2.1, rfl⟩))
      · simp [shareable, hp, hid, hpa, hw.row.2, attemptOf, hattempt, hs, hw.attempt.2.1, howned]
      · simp [htask, ha, hpa, hopen, hfree]
    refine List.any_eq_true.2 ⟨n, hn, ?_⟩
    have hany : (db.shareReports.responses.any fun r => r.notificationId = n.id &&
        some r.responseAttemptId = q.attemptId) = true :=
      List.any_eq_true.2 ⟨_, hshared, by simp [hw.row.2.1]⟩
    have hcurrent : db.shareReports.current n = true := hc
    have hconnected : db.shareReports.connected t.id = false := hfree
    simp only [hany, hcurrent, hp, ha, hpa, hs, hconnected]
    simp

/-! ## What lasts -/

/-- A response that waits is for its task's Agent, on an open task that is scheduled here, and
about a child that is not woken. -/
def Answers (db : Db) (q : QueueItem) (candidate : WorkAttempt) (t : Task) : Prop :=
  t.closed = false ∧ t.agentId = some q.agentId ∧ candidate.sessionId = q.agentId ∧
    db.connected t.id = false ∧ db.told t.id q.agentId

/-- **What a reconciliation leaves lasts.**  Every automatic response that waits answers a
child that is not woken, and so does every response that the reports need. -/
structure Lasting (db : Db) : Prop where
  waiting : ∀ q candidate t, db.Waiting q candidate t → db.Answers q candidate t
  reported : ∀ r ∈ db.reports, db.sharedResponse r.1.parentId r.2.2 = none →
    db.told r.1.parentId r.2.2

theorem unreported_parent {o : Outcome} {r : Outcome × TaskStatus × String}
    (h : db.unreported o = some r) : ∃ parent, db.task? r.1.parentId = some parent ∧
      parent.agentId = some r.2.2 ∧ parent.closed = false ∧ db.connected parent.id = false := by
  obtain ⟨status, hstatus, h⟩ := Option.bind_eq_some_iff.1 h
  obtain ⟨parent, hparent, h⟩ := Option.bind_eq_some_iff.1 h
  obtain ⟨owner, howner, h⟩ := Option.bind_eq_some_iff.1 h
  split at h
  · rename_i hcond
    cases h
    simp only [Bool.and_eq_true, Bool.not_eq_true'] at hcond
    exact ⟨parent, hparent, howner, hcond.1.1.1.1.1.2, hcond.1.2⟩
  · cases h

/-- The responses that wait after the deliveries: those that waited, and the new ones. -/
theorem Awakening.waiting_iff (hs : db.Schema) (hs' : db'.Schema)
    (hd : Deliveries db.reports db db') (h : Awakening db.reports db db' g new) {q : QueueItem}
    {candidate : WorkAttempt} {t : Task} : db'.Waiting q candidate t ↔
      (∃ c, db.Waiting q c t ∧ candidate = g c) ∨
        (q, candidate) ∈ new ∧ db.task? q.taskId = some t := by
  have htask : db'.task? q.taskId = db.task? q.taskId := by rw [task?, hd.tasks, task?]
  have howned (i : ℕ) : db'.workflowOwned (some i) = db.workflowOwned (some i) := by
    rw [workflowOwned, hd.executions, workflowOwned]
  have hkept {a : WorkAttempt} (ha : a ∈ db.attempts) : g a ∈ db'.attempts := by
    rw [h.attempts]
    exact List.mem_append_left _ (List.mem_map_of_mem ha)
  have hadded {p : QueueItem × WorkAttempt} (hp : p ∈ new) : p.2 ∈ db'.attempts := by
    rw [h.attempts]
    exact List.mem_append_right _ (List.mem_map_of_mem hp)
  have hg := h.triggers
  constructor
  · intro hw
    have hmem := (attempt?_mem hw.attempt.1).1
    have hq := hw.row.1
    rw [h.queue] at hq
    rcases List.mem_append.1 hq with hq | hq
    · -- the row was there before, and so was its attempt
      obtain ⟨a, ha, hid, -⟩ := hs.links q hq _ hw.row.2.1
      obtain rfl : candidate = g a := hs'.eq_of_id hmem (hkept ha) ((hg.id a).trans hid).symm
      have hauto := hw.automatic
      rw [h.automatic, hg.id] at hauto
      have hlt := hs.attemptIds a ha
      rcases List.mem_append.1 hauto with hauto | hauto
      · refine Or.inl ⟨a, ⟨hauto, ⟨hq, ?_, hw.row.2.2⟩, ⟨hs.attempt?_of_mem ha, ?_, ?_, ?_⟩,
          ⟨?_, htask ▸ hw.task.2⟩, ?_⟩, rfl⟩
        · rw [← hg.id a]
          exact hw.row.2.1
        · rw [← hg.status a]
          exact hw.attempt.2.1
        · rw [← hg.startedAt a]
          exact hw.attempt.2.2.1
        · rw [← hg.containerId a]
          exact hw.attempt.2.2.2
        · rw [← hg.taskId a]
          exact hw.task.1
        · rw [← howned, ← hg.id a]
          exact hw.free
      · obtain ⟨p, hp, hpid⟩ := List.mem_map.1 hauto
        have hge := h.fresh p hp
        omega
    · -- the row is new
      obtain ⟨p, hp, rfl⟩ := List.mem_map.1 hq
      obtain ⟨r, -, hresponse, -⟩ := h.reported p hp
      have hid : candidate.id = p.2.id :=
        Option.some.inj (hw.row.2.1.symm.trans hresponse.row.2.2.2)
      obtain rfl : candidate = p.2 := hs'.eq_of_id hmem (hadded hp) hid
      exact Or.inr ⟨hp, htask ▸ hw.task.2⟩
  · rintro (⟨c, hw, rfl⟩ | ⟨hp, ht⟩)
    · have hmem := (attempt?_mem hw.attempt.1).1
      refine ⟨?_, ⟨?_, ?_, hw.row.2.2⟩, ⟨hs'.attempt?_of_mem (hkept hmem), ?_, ?_, ?_⟩,
        ⟨?_, htask.trans hw.task.2⟩, ?_⟩
      · rw [h.automatic, hg.id]
        exact List.mem_append_left _ hw.automatic
      · rw [h.queue]
        exact List.mem_append_left _ hw.row.1
      · rw [hg.id]
        exact hw.row.2.1
      · rw [hg.status]
        exact hw.attempt.2.1
      · rw [hg.startedAt]
        exact hw.attempt.2.2.1
      · rw [hg.containerId]
        exact hw.attempt.2.2.2
      · rw [hg.taskId]
        exact hw.task.1
      · rw [howned, hg.id]
        exact hw.free
    · obtain ⟨r, -, hresponse, -⟩ := h.reported _ hp
      obtain ⟨hrow, hattempt⟩ := hresponse
      refine ⟨?_, ⟨?_, hrow.2.2.2, hrow.2.2.1⟩, ⟨hs'.attempt?_of_mem (hadded hp),
        hattempt.2.2.1, hattempt.2.2.2.1, hattempt.2.2.2.2⟩, ⟨?_, htask.trans ht⟩, ?_⟩
      · rw [h.automatic]
        exact List.mem_append_right _ (List.mem_map.2 ⟨_, hp, rfl⟩)
      · rw [h.queue]
        exact List.mem_append_right _ (List.mem_map.2 ⟨_, hp, rfl⟩)
      · rw [hattempt.1, hrow.1]
      · rw [howned]
        exact workflowOwned_new hs (h.fresh _ hp)

/-- What waits after the deliveries has a grant exactly when what the deliveries found
lasts. -/
theorem staleResponses_iff (hs : db.Schema) (hs' : db'.Schema)
    (hd : Deliveries db.reports db db') (h : Awakening db.reports db db' g new) :
    db'.shareReports.staleResponses none = [] ↔ db.Lasting := by
  have hwaits {q : QueueItem} {c : WorkAttempt} {t : Task} :
      db'.shareReports.Waiting q c t ↔ db'.Waiting q c t :=
    ⟨fun ⟨h1, h2, h3, h4, h5⟩ => ⟨h1, h2, h3, h4, h5⟩,
      fun ⟨h1, h2, h3, h4, h5⟩ => ⟨h1, h2, h3, h4, h5⟩⟩
  have hconnected (c : String) : db'.connected c = db.connected c := by
    rw [connected, hd.work, connected]
  -- a waiting response has a grant when it answers
  have hanswers {q : QueueItem} {c : WorkAttempt} {t : Task} (hw : db'.Waiting q c t) :
      (t.closed = false ∧ db'.shareReports.recoveryGrant q t c = true) ↔ db.Answers q c t := by
    unfold Answers
    refine and_congr_right fun hopen => ?_
    rw [recoveryGrant_iff (hwaits.2 hw) hopen, hconnected, notified_iff hd h]
  rw [staleResponses_eq_nil]
  constructor
  · intro hall
    refine ⟨fun q c t hw => ?_, fun r hr hfree => ?_⟩
    · have hw' := (h.waiting_iff hs hs' hd).2 (Or.inl ⟨c, hw, rfl⟩)
      obtain ⟨hopen, ha, hsession, hlocal, htold⟩ :=
        (hanswers hw').1 (hall q (g c) t (hwaits.2 hw'))
      exact ⟨hopen, ha, (h.triggers.sessionId c).symm.trans hsession, hlocal, htold⟩
    · obtain ⟨p, hp, hresponse⟩ := h.woken r hr hfree
      obtain ⟨o, -, hu⟩ := mem_reports.1 hr
      obtain ⟨parent, hparent, -⟩ := unreported_parent hu
      have hrow : db.task? p.1.taskId = some parent := by
        rw [hresponse.row.1]
        exact hparent
      have hw' := (h.waiting_iff hs hs' hd).2 (Or.inr ⟨hp, hrow⟩)
      obtain ⟨-, -, -, -, htold⟩ := (hanswers hw').1 (hall _ _ _ (hwaits.2 hw'))
      have hid : parent.id = r.1.parentId := Table.key_of_get hparent
      rw [hid, hresponse.row.2.1] at htold
      exact htold
  · intro hlast q c t hw
    rw [hwaits] at hw
    refine (hanswers hw).2 ?_
    rcases (h.waiting_iff hs hs' hd).1 hw with ⟨c₀, hw₀, rfl⟩ | ⟨hp, ht⟩
    · obtain ⟨hopen, ha, hsession, hlocal, htold⟩ := hlast.waiting q c₀ t hw₀
      exact ⟨hopen, ha, (h.triggers.sessionId c₀).trans hsession, hlocal, htold⟩
    · obtain ⟨r, hr, hresponse, hfree⟩ := h.reported _ hp
      obtain ⟨o, -, hu⟩ := mem_reports.1 hr
      obtain ⟨parent, hparent, hagent, hopen, hlocal⟩ := unreported_parent hu
      have htold := hlast.reported r hr hfree
      have hrow := hresponse.row.1
      dsimp only at hrow
      rw [hrow, hparent] at ht
      cases ht
      have hid : t.id = r.1.parentId := Table.key_of_get hparent
      have howner : q.agentId = r.2.2 := hresponse.row.2.1
      refine ⟨hopen, by rw [howner]; exact hagent, ?_, hlocal, ?_⟩
      · exact hresponse.attempt.2.1.trans howner.symm
      · rw [hid, howner]
        exact htold

/-! ## Twice -/

theorem retireStale_eq_self (h : db.staleResponses none = []) (now : ℤ) :
    db.retireStale none now = db := by
  rw [retireStale, h]
  rfl

theorem reports_eq_nil (h : ∀ o ∈ db.outcomes, db.unreported o = none) : db.reports = [] := by
  rw [List.eq_nil_iff_forall_not_mem]
  intro r hr
  obtain ⟨o, ho, hu⟩ := mem_reports.1 hr
  rw [h o ho] at hu
  cases hu

/-- **The second reconciliation changes nothing exactly when what the first one leaves
lasts.** -/
theorem reconcile_again {now now' : ℤ} (hs : db.Schema)
    (h : reconcile now db = .ok ((), db')) :
    reconcile now' db' = .ok ((), db') ↔ (db.retireStale none now).Lasting := by
  have hs' := (reconcile_calm now db hs _ _ h).schema hs
  have hs₀ := (retireStale_calm hs none now).schema hs
  obtain ⟨⟨_, db₁⟩, h1, h⟩ := bind_ok h
  cases h
  have hd := deliverAll_deliveries hs₀ h1
  have hs₁ := (deliverAll_calm now _ _ hs₀ _ _ h1).schema hs₀
  obtain ⟨g, new, ha⟩ := deliverAll_awakening hs₀ h1
  rw [← staleResponses_iff hs₀ hs₁ hd ha]
  constructor
  · intro htwice
    by_contra hstale
    obtain ⟨p, hp⟩ := List.exists_mem_of_ne_nil _ hstale
    obtain ⟨i, j⟩ := p
    obtain ⟨-, -, -, -, -, -, candidate, hc, hqueued, -⟩ := mem_staleResponses hp
    -- the attempt is cancelled by the second run
    obtain ⟨g', hg', hr⟩ := retireAll_attempts now' (db₁.shareReports.staleResponses none)
      db₁.shareReports
    have hretired : (db₁.shareReports.retireStale none now').attempt? i = some (g' candidate) := by
      rw [attempt?, retireStale, hg', Table.get_map fun a => (hr a).1]
      exact congrArg (Option.map g') hc
    have hid : candidate.id = i := (attempt?_mem hc).2
    have hmem : candidate.id ∈ (db₁.shareReports.staleResponses none).map (·.1) := by
      rw [hid]
      exact List.mem_map_of_mem hp
    have hsame := (reconcile_deliveries hs' htwice).statuses i (by rw [hretired]; rfl)
    rw [hretired, hc, Option.map_some, Option.map_some, Option.some.injEq, hqueued] at hsame
    rcases (hr candidate).2.2.2 with ⟨-, hnot⟩ | ⟨-, hcancelled⟩
    · exact hnot hmem
    · rw [hcancelled] at hsame
      cases hsame
  · intro hnone
    have hreports : db₁.shareReports.reports = [] := by
      refine reports_eq_nil fun o ho => ?_
      exact hd.unreported ho
    rw [reconcile, retireStale_eq_self hnone, hreports]
    show Except.ok ((), db₁.shareReports.shareReports) = _
    rw [shareReports_twice]

/-! ## Told once -/

/-- Where a partial map keeps a key, the keys of what it yields are among the keys of what it is
given, in order. -/
theorem map_filterMap_sublist {α β γ : Type} {f : α → Option β} {key : α → γ} {key' : β → γ}
    (h : ∀ a b, f a = some b → key' b = key a) (l : List α) :
    ((l.filterMap f).map key').Sublist (l.map key) := by
  induction l with
  | nil => simp
  | cons a l ih =>
    cases hf : f a with
    | none =>
      rw [List.filterMap_cons_none hf]
      exact ih.cons _
    | some b =>
      rw [List.filterMap_cons_some hf, List.map_cons, List.map_cons, h a b hf]
      exact ih.cons_cons _

/-- A child reports one outcome at a time. -/
theorem reports_nodup (hk : (db.tasks.map (·.id)).Nodup) : (db.reports.map reportKey).Nodup := by
  have houtcomes : (db.outcomes.map (·.childId)).Nodup := by
    have hall : ((db.tasks.filterMap db.report).map (·.childId)).Sublist (db.tasks.map (·.id)) := by
      refine map_filterMap_sublist (fun t o hr => ?_) _
      unfold Db.report at hr
      split at hr
      · cases hr
      · split at hr <;> cases hr
        rfl
    exact (hall.nodup hk).sublist (List.filter_sublist.map _)
  have hunsorted : ((db.outcomes.filterMap db.unreported).map (·.1.childId)).Nodup :=
    (map_filterMap_sublist (fun o r hu => congrArg Outcome.childId (unreported_isSome hu).1)
      _).nodup houtcomes
  have hsorted : (db.reports.map (·.1.childId)).Nodup :=
    ((List.perm_insertionSort _ _).map _).nodup_iff.2 hunsorted
  refine List.Nodup.of_map (fun k : ReportKey => k.2.2.1) ?_
  rw [List.map_map]
  exact hsorted

theorem reconcile_nodup {now : ℤ} (hs : db.Schema) (hk : (db.tasks.map (·.id)).Nodup)
    (hj : (db.notifications.map noticeKey).Nodup) (h : reconcile now db = .ok ((), db')) :
    (db'.tasks.map (·.id)).Nodup ∧ (db'.notifications.map noticeKey).Nodup := by
  have hd := reconcile_deliveries hs h
  obtain ⟨htasks, -, -, -, -, hnotes, -⟩ := retireAll_frame now (db.staleResponses none) db
  have htasks' : (db.retireStale none now).tasks = db.tasks := htasks
  have hnotes' : (db.retireStale none now).notifications = db.notifications := hnotes
  obtain ⟨new, hnew, hkeys, -⟩ := hd.journal
  refine ⟨by rw [hd.tasks, htasks']; exact hk, ?_⟩
  rw [hnew, List.map_append, hkeys, hnotes']
  refine hj.append (reports_nodup (by rw [htasks']; exact hk)) fun k hold hmem => ?_
  obtain ⟨r, hr, rfl⟩ := List.mem_map.1 hmem
  obtain ⟨o, -, hu⟩ := mem_reports.1 hr
  refine (unreported_isSome hu).2.2 ?_
  rw [hnotes']
  exact hold

end Db

/-! ## The result -/

/-- Others keep the keys of tasks and what the journal tells. -/
structure KeepsJournal (db db' : Db) : Prop where
  schema : db'.Schema
  tasks : (db'.tasks.map (·.id)).Nodup
  journal : db'.notifications.map Db.noticeKey = db.notifications.map Db.noticeKey

def Later.Keeping (db : Db) : Later → Prop
  | reconcile _ => True
  | others db' => KeepsJournal db db'

/-- No parent is told twice. -/
structure ToldOnce (db : Db) : Prop where
  schema : db.Schema
  tasks : (db.tasks.map (·.id)).Nodup
  journal : (db.notifications.map Db.noticeKey).Nodup

theorem step_toldOnce {db : Db} {later : Later} (h : ToldOnce db) (hl : later.Keeping db) :
    ToldOnce (later.step db) := by
  cases later with
  | reconcile now =>
    unfold Later.step
    dsimp only
    split
    · rename_i u db' hok
      obtain ⟨htasks, hjournal⟩ := Db.reconcile_nodup h.schema h.tasks h.journal hok
      exact ⟨(Db.reconcile_calm now db h.schema _ _ hok).schema h.schema, htasks, hjournal⟩
    · exact h
  | others db' => exact ⟨hl.schema, hl.tasks, hl.journal ▸ h.journal⟩

/-- **Reconciling twice.**  After a reconciliation, a second one changes nothing exactly when
what the first one leaves lasts; and no parent and owner are told an outcome of an attempt of a
child twice, however often others and further reconciliations follow. -/
theorem reconcile_twice {now : ℤ} {db db' : Db} (hs : db.Schema)
    (hk : (db.tasks.map (·.id)).Nodup) (hj : (db.notifications.map Db.noticeKey).Nodup)
    (h : db.reconcile now = .ok ((), db')) :
    (∀ now', db'.reconcile now' = .ok ((), db') ↔ (db.retireStale none now).Lasting) ∧
      ∀ later, Along Later.step (fun db l => l.Keeping db) db' later →
        ((runOps Later.step db' later).notifications.map Db.noticeKey).Nodup := by
  refine ⟨fun now' => Db.reconcile_again hs h, fun later hl => ?_⟩
  obtain ⟨htasks, hjournal⟩ := Db.reconcile_nodup hs hk hj h
  have hend := hl.invariant (I := ToldOnce) (fun _ _ ht hop => step_toldOnce ht hop)
    ⟨(Db.reconcile_calm now db hs _ _ h).schema hs, htasks, hjournal⟩
  exact hend.journal

/-- Three levels of tasks. -/
def hierarchy : Db where
  projects := [{ id := "home" }]
  agents := [{ id := "ada", projectId := some "home" }, { id := "atlas", projectId := some "home" },
    { id := "rhea", projectId := some "home" }]
  tasks :=
    [{ id := "goal", agentId := some "ada", projectId := some "home" },
      { id := "plan", agentId := some "atlas", projectId := some "home",
        parentTaskId := some "goal" },
      { id := "report", agentId := some "rhea", projectId := some "home",
        parentTaskId := some "plan", blocksParent := false }]

theorem schema_hierarchy : hierarchy.Schema := by
  constructor <;> simp [hierarchy]

/-- The lower two levels have responded. -/
def bothResponded : Db :=
  runOps (step fun _ => false) hierarchy
    [.enqueue "plan" "atlas" 1000, .enqueue "report" "rhea" 1000, .claim none 2000,
      .claim none 2000, .transition 0 .completed (some "planned") none 3000,
      .transition 1 .completed (some "done") none 3000, .complete 1 "planned" 3000,
      .complete 2 "done" 3000]

theorem bothResponded_told_once :
    match bothResponded.reconcile 4000 with
    | .ok (_, db) => ((runOps Later.step db
        [.reconcile 5000, .reconcile 6000]).notifications.map Db.noticeKey).Nodup
    | .error _ => False := by
  have hok : (bothResponded.reconcile 4000).toBool = true := by decide +kernel
  cases h : bothResponded.reconcile 4000 with
  | error e =>
      rw [h] at hok
      cases hok
  | ok r =>
      have hs : bothResponded.Schema := run_schema (fun _ => false) schema_hierarchy _
      exact (reconcile_twice hs (by decide +kernel) (by decide +kernel) h).2
        [.reconcile 5000, .reconcile 6000] ⟨trivial, trivial, trivial⟩

/-- The responses that were retired after so many reconciliations. -/
def retiredAfter (times : List Later) : ℕ :=
  (runOps Later.step bothResponded times).attempts.countP (·.status = .cancelled)

theorem second_reconcile_retires : retiredAfter [.reconcile 4000] = 0 ∧
    retiredAfter [.reconcile 4000, .reconcile 5000] = 1 := by
  decide +kernel

end XpressClaw.Tasks
