import XpressClaw.Tasks.Calm

/-!
# One live dispatch per agent

A dispatch is live while its row runs and its attempt has not ended or still holds a
container.

* `Db.Exclusive` — no agent has two live dispatches.  A claim keeps it, since it passes over
  the agents that are busy; every calm transaction keeps it; recovery ends the dispatches it
  queues again.  Only a container that is recorded for an attempt that has ended can revive
  a dispatch behind the back of the claim.
* `Db.Taken` — a row that was handed out is not queued again, except by recovery.

`one_live_dispatch` puts both together over all runs.
-/

namespace XpressClaw.Tasks

open Lib

namespace Db

/-- No agent has two live dispatches. -/
def Exclusive (db : Db) : Prop :=
  ∀ q ∈ db.queue, ∀ q' ∈ db.queue, db.live q = true → db.live q' = true →
    q.agentId = q'.agentId → q.id = q'.id

/-- A row with this number has been inserted and is not waiting. -/
def Taken (r : ℕ) (db : Db) : Prop :=
  r < db.nextQueueId ∧ ∀ q ∈ db.queue, q.id = r → q.status ≠ .queued

variable {db db' : Db}

/-! ## Live dispatches -/

theorem live_iff {q : QueueItem} : db.live q = true ↔
    q.status = .running ∧ ∃ a, db.attemptOf q = some a ∧ (¬a.ended ∨ a.containerId.isSome) := by
  simp only [live, Bool.and_eq_true, decide_eq_true_eq, Option.any_eq_true, Bool.or_eq_true,
    Bool.not_eq_true', WorkAttempt.ended, Bool.not_eq_true]

theorem Schema.attemptOf_eq (hs : db.Schema) {q : QueueItem} {a : WorkAttempt}
    (ha : a ∈ db.attempts) (h : q.attemptId = some a.id) : db.attemptOf q = some a := by
  rw [attemptOf, h]
  exact hs.attempt?_of_mem ha

/-- A dispatch that is live after a calm transaction was live before it. -/
theorem Calm.live (h : db.Calm db') (hs : db.Schema) {q' : QueueItem} (hq' : q' ∈ db'.queue)
    (hlive : db'.live q' = true) :
    ∃ q ∈ db.queue, q.id = q'.id ∧ q.agentId = q'.agentId ∧ db.live q = true := by
  have hs' := h.schema hs
  obtain ⟨hrun, b, hb, hopen⟩ := live_iff.1 hlive
  obtain ⟨hbmem, hbid, -⟩ := attemptOf_link hs' hq' hb
  rcases h.queue q' hq' with ⟨q, hq, hcalm⟩ | ⟨-, hnew⟩
  · obtain ⟨hrun₀, hagent, hattempt⟩ := hcalm.running hrun
    rw [hattempt] at hbid
    obtain ⟨a, ha, hai, -⟩ := hs.links q hq b.id hbid
    obtain ⟨a', ha', hkept⟩ := h.attempts a ha
    have heq : a' = b := hs'.eq_of_id ha' hbmem (hkept.id.trans hai)
    subst heq
    refine ⟨q, hq, hcalm.id.symm, hagent.symm, live_iff.2 ⟨hrun₀, a, ?_, ?_⟩⟩
    · exact hs.attemptOf_eq ha (by rw [hai]; exact hbid)
    · by_cases he : a.ended
      · right
        rcases hopen with hopen | hheld
        · exact absurd (by rw [WorkAttempt.ended, (hkept.ended he).1]; exact he) hopen
        · by_contra hnone
          rw [Option.not_isSome_iff_eq_none] at hnone
          rw [hkept.free he hnone] at hheld
          cases hheld
      · exact Or.inl he
  · exact absurd hrun hnew

theorem Calm.exclusive (h : db.Calm db') (hs : db.Schema) (hx : db.Exclusive) :
    db'.Exclusive := by
  intro q₁ h₁ q₂ h₂ hl₁ hl₂ hagent
  obtain ⟨p₁, hp₁, hid₁, ha₁, hlive₁⟩ := h.live hs h₁ hl₁
  obtain ⟨p₂, hp₂, hid₂, ha₂, hlive₂⟩ := h.live hs h₂ hl₂
  have hid := hx p₁ hp₁ p₂ hp₂ hlive₁ hlive₂ (by rw [ha₁, ha₂, hagent])
  rw [← hid₁, ← hid₂, hid]

/-! ## Claims -/

theorem mem_dispatch {item q' : QueueItem} {now : ℤ} (h : q' ∈ (db.dispatch item now).queue) :
    (q'.id = item.id ∧ q'.status = .running) ∨ (q' ∈ db.queue ∧ db.live q' =
      (db.dispatch item now).live q' ∧ ¬(q'.id = item.id ∧ q'.status = .queued)) := by
  rw [dispatch_queue] at h
  obtain ⟨q, hq, rfl⟩ := List.mem_map.1 h
  by_cases hc : q.id = item.id ∧ q.status = .queued
  · rw [if_pos hc]
    exact Or.inl ⟨hc.1, rfl⟩
  · rw [if_neg hc]
    exact Or.inr ⟨hq, rfl, hc⟩

theorem dispatch_exclusive {agentId : Option String} {now : ℤ} {item : QueueItem}
    (hs : db.Schema) (hx : db.Exclusive) (h : db.nextClaim agentId now = some item) :
    (db.dispatch item now).Exclusive := by
  obtain ⟨hmem, t, candidate, -, -, hc⟩ := nextClaim_claimable h
  have hfree : db.agentBusy item.agentId = false := by
    simp only [claimable, Bool.and_eq_true, Bool.not_eq_true'] at hc
    exact hc.1.2
  have hbusy : ∀ q ∈ db.queue, q.agentId = item.agentId → ¬db.live q = true := by
    simpa [agentBusy] using hfree
  -- the rows with the number of the dispatched one keep its agent
  have hagent : ∀ q' ∈ (db.dispatch item now).queue, q'.id = item.id →
      q'.agentId = item.agentId := by
    intro q' hq' hid
    rw [dispatch_queue] at hq'
    obtain ⟨q, hq, rfl⟩ := List.mem_map.1 hq'
    have hid' : q.id = item.id := by
      rw [← hid]
      split <;> rfl
    have hget := hs.item?_of_mem hq
    rw [hid', hs.item?_of_mem hmem] at hget
    rw [← Option.some.inj hget]
    split <;> rfl
  intro q₁ h₁ q₂ h₂ hl₁ hl₂ hsame
  rcases mem_dispatch h₁ with ⟨hid₁, -⟩ | ⟨hq₁, hlive₁, -⟩
  · rcases mem_dispatch h₂ with ⟨hid₂, -⟩ | ⟨hq₂, hlive₂, -⟩
    · rw [hid₁, hid₂]
    · exact absurd (hlive₂.trans hl₂) (hbusy q₂ hq₂ (by rw [← hsame, hagent q₁ h₁ hid₁]))
  · rcases mem_dispatch h₂ with ⟨hid₂, -⟩ | ⟨hq₂, hlive₂, -⟩
    · exact absurd (hlive₁.trans hl₁) (hbusy q₁ hq₁ (by rw [hsame, hagent q₂ h₂ hid₂]))
    · exact hx q₁ hq₁ q₂ hq₂ (hlive₁.trans hl₁) (hlive₂.trans hl₂) hsame

theorem claimAt_exclusive {agentId : Option String} {now : ℤ} {r : Option QueueItem}
    (hs : db.Schema) (hx : db.Exclusive) (h : claimAt agentId now db = .ok (r, db')) :
    db'.Exclusive := by
  obtain ⟨db₁, hcalm, ⟨-, rfl⟩ | ⟨item, hitem, rfl, -⟩⟩ := claimAt_cases hs h
  · exact hcalm.exclusive hs hx
  · exact dispatch_exclusive (hcalm.schema hs) (hcalm.exclusive hs hx) hitem

/-! ## Recovery -/

/-- A row that recovery leaves running is as before, and so is its attempt. -/
theorem requeue_live (hs : db.Schema) {o : Orphan} (ho : o ∈ db.orphaned) {q : QueueItem}
    (hq : q ∈ (db.requeue o).queue) (h : (db.requeue o).live q = true) :
    q ∈ db.queue ∧ db.live q = true := by
  obtain ⟨hrun, b, hb, hopen⟩ := live_iff.1 h
  obtain ⟨p, hp, rfl⟩ := List.mem_map.1 hq
  by_cases hid : p.id = o.queueId
  · simp [hid] at hrun
  · simp only [hid, decide_false, Bool.false_eq_true, if_false] at hrun hb ⊢
    obtain ⟨i, hi, ha⟩ := Option.bind_eq_some_iff.1 hb
    obtain ⟨a, hamem, hai, haq⟩ := hs.links p hp i hi
    -- the attempt recovery resets belongs to the row it queues again
    have hne : i ≠ o.attemptId := by
      rintro rfl
      obtain ⟨a', ha', hai', haq'⟩ := hs.orphans o ho
      have heq := hs.eq_of_id hamem ha' (hai.trans hai'.symm)
      rw [heq, haq'] at haq
      exact hid (Option.some.inj haq).symm
    obtain ⟨hbmem, hbid⟩ := attempt?_mem ha
    obtain ⟨a₀, ha₀, hab⟩ := List.mem_map.1 hbmem
    have hid₀ : a₀.id = i := by
      rw [← hbid, ← hab]
      split <;> rfl
    have heq : b = a₀ := by
      rw [← hab, if_neg]
      simp [hid₀, hne]
    rw [heq] at hopen
    exact ⟨hp, live_iff.2 ⟨hrun, a₀, hs.attemptOf_eq ha₀ (by rw [hid₀]; exact hi), hopen⟩⟩

theorem requeue_exclusive (hs : db.Schema) {o : Orphan} (ho : o ∈ db.orphaned)
    (hx : db.Exclusive) : (db.requeue o).Exclusive := by
  intro q₁ h₁ q₂ h₂ hl₁ hl₂ hagent
  obtain ⟨hq₁, hlive₁⟩ := requeue_live hs ho h₁ hl₁
  obtain ⟨hq₂, hlive₂⟩ := requeue_live hs ho h₂ hl₂
  exact hx q₁ hq₁ q₂ hq₂ hlive₁ hlive₂ hagent

/-- What queuing every listed dispatch again keeps, recovery keeps. -/
theorem foldl_requeue {I : Db → Prop} {listed : List Orphan}
    (hstep : ∀ db : Db, db.Schema → ∀ o ∈ db.orphaned, o ∈ listed → I db → I (db.requeue o))
    (hs : db.Schema) (hl : ∀ o ∈ listed, o ∈ db.orphaned) (h : I db) :
    I (listed.foldl (fun db o => db.requeue o) db) := by
  suffices hfold : ∀ os : List Orphan, (∀ o ∈ os, o ∈ listed) → ∀ db : Db, db.Schema →
      (∀ o ∈ os, o ∈ db.orphaned) → I db → I (os.foldl (fun db o => db.requeue o) db) from
    hfold listed (fun _ ho => ho) db hs hl h
  intro os
  induction os with
  | nil => exact fun _ _ _ _ h => h
  | cons o os ih =>
    intro hmem db hs hl h
    apply ih (fun o' ho' => hmem o' (List.mem_cons_of_mem o ho')) _ (requeue_schema o hs)
    · exact fun o' ho' => hl o' (List.mem_cons_of_mem o ho')
    · have ho : o ∈ o :: os := List.mem_cons_self
      exact hstep db hs o (hl o ho) (hmem o ho) h

theorem recoverRequeue_exclusive (hs : db.Schema) (hx : db.Exclusive) :
    db.recoverRequeue.Exclusive :=
  foldl_requeue (fun _ hs _ ho _ hx => requeue_exclusive hs ho hx) hs
    (fun _ ho => ho) hx

/-! ## Rows that were handed out -/

theorem Kept.taken {r : ℕ} (h : db.Kept db') (ht : db.Taken r) : db'.Taken r := by
  refine ⟨ht.1.trans_le h.next, ?_⟩
  intro q' hq' hid hqueued
  rcases h.queue q' hq' with ⟨q, hq, hkept⟩ | ⟨hnew, -⟩
  · exact ht.2 q hq (hkept.id.symm.trans hid) (hkept.queued hqueued)
  · have hlt := ht.1
    omega

theorem requeue_taken {r : ℕ} {o : Orphan} (ho : o.queueId ≠ r) (h : db.Taken r) :
    (db.requeue o).Taken r := by
  refine ⟨h.1, ?_⟩
  intro q' hq' hid
  obtain ⟨q, hq, rfl⟩ := List.mem_map.1 hq'
  have hne : q.id ≠ o.queueId := by
    intro heq
    simp only [heq, decide_true, if_true] at hid
    exact ho hid
  simp only [hne, decide_false, Bool.false_eq_true, if_false] at hid ⊢
  exact h.2 q hq hid

theorem recoverRequeue_taken {r : ℕ} (hs : db.Schema) (h : db.Taken r)
    (ho : ∀ o ∈ db.orphaned, o.queueId ≠ r) : db.recoverRequeue.Taken r :=
  foldl_requeue (fun _ _ o _ hmem h => requeue_taken (ho o hmem) h) hs (fun _ ho => ho) h

/-- A claim hands out a row that was waiting, and takes it. -/
theorem claimAt_takes {agentId : Option String} {now : ℤ} {item : QueueItem} (hs : db.Schema)
    (h : claimAt agentId now db = .ok (some item, db')) :
    ¬db.Taken item.id ∧ db'.Taken item.id := by
  obtain ⟨db₁, hcalm, ⟨hnone, -⟩ | ⟨next, hnext, rfl, hitem⟩⟩ := claimAt_cases hs h
  · cases hnone
  obtain ⟨hmem, t, candidate, -, -, hc⟩ := nextClaim_claimable hnext
  obtain ⟨-, hid⟩ := item?_mem hitem.symm
  have hqueued : next.status = .queued := by
    simp only [claimable, Bool.and_eq_true, decide_eq_true_eq] at hc
    exact hc.1.1.1.1.1.1.1.1
  rw [hid]
  constructor
  · intro ht
    exact (hcalm.kept.taken ht).2 next hmem rfl hqueued
  · refine ⟨(hcalm.schema hs).itemIds next hmem, fun q' hq' hid' hwaiting => ?_⟩
    rcases mem_dispatch hq' with ⟨-, hrun⟩ | ⟨-, -, hother⟩
    · rw [hrun] at hwaiting
      cases hwaiting
    · exact hother ⟨hid', hwaiting⟩

end Db

/-! ## Runs -/

variable {needsUserInput : String → Bool}

/-- The attempt a container is recorded for. -/
def Op.holder : Op → Option ℕ
  | .setContainer attemptId _ => some attemptId
  | _ => none

/-- A container is recorded only for an attempt that has not ended. -/
def Op.Timely (db : Db) (op : Op) : Prop :=
  ∀ i ∈ op.holder, ∀ a ∈ db.attempts, a.id = i → ¬a.ended

instance (db : Db) (op : Op) : Decidable (op.Timely db) :=
  inferInstanceAs (Decidable (∀ i ∈ op.holder, ∀ a ∈ db.attempts, a.id = i → ¬a.ended))

theorem step_exclusive {db : Db} {op : Op} (hs : db.Schema) (hx : db.Exclusive)
    (h : op.Timely db) : (step needsUserInput db op).Exclusive := by
  by_cases hop : op.Stirs
  · cases op with
    | claim a now =>
      obtain ⟨r, hc⟩ | hc := step_cases needsUserInput db (.claim a now)
      · obtain ⟨⟨item, db₁⟩, h1, h2⟩ := bind_ok hc
        cases h2
        exact Db.claimAt_exclusive hs hx h1
      · rw [hc]
        exact hx
    | recoverRequeue => exact Db.recoverRequeue_exclusive hs hx
    | setContainer a c => exact (Db.setContainer_calm (h a rfl)).exclusive hs hx
    | _ => exact hop.elim
  · exact (step_calm hs hop).exclusive hs hx

/-- Only recovery gives a row back that was handed out. -/
theorem step_taken {db : Db} {op : Op} {r : ℕ} (hs : db.Schema) (h : db.Taken r)
    (hop : op = .recoverRequeue → ∀ o ∈ db.orphaned, o.queueId ≠ r) :
    (step needsUserInput db op).Taken r := by
  by_cases hstirs : op.Stirs
  · cases op with
    | claim a now =>
      obtain ⟨reply, hc⟩ | hc := step_cases needsUserInput db (.claim a now)
      · obtain ⟨⟨item, db₁⟩, h1, h2⟩ := bind_ok hc
        cases h2
        exact (Db.claimAt_kept hs h1).taken h
      · rw [hc]
        exact h
    | recoverRequeue => exact Db.recoverRequeue_taken hs h (hop rfl)
    | setContainer a c => exact (Db.setContainer_kept a c).taken h
    | _ => exact hstirs.elim
  · exact (step_calm hs hstirs).kept.taken h

/-- A row that was handed out stays out, or a recovery of the run lists its dispatch. -/
theorem run_taken {db : Db} {r : ℕ} (hs : db.Schema) (h : db.Taken r) (ops : List Op) :
    (runOps (step needsUserInput) db ops).Taken r ∨
      ∃ before after, ops = before ++ .recoverRequeue :: after ∧
        ∃ o ∈ (runOps (step needsUserInput) db before).orphaned, o.queueId = r := by
  induction ops generalizing db with
  | nil => exact Or.inl h
  | cons op ops ih =>
    by_cases hlisted : op = .recoverRequeue ∧ ∃ o ∈ db.orphaned, o.queueId = r
    · obtain ⟨rfl, ho⟩ := hlisted
      exact Or.inr ⟨[], ops, rfl, ho⟩
    · have htaken : (step needsUserInput db op).Taken r := by
        apply step_taken hs h
        intro hop o ho hr
        exact hlisted ⟨hop, o, ho, hr⟩
      rcases ih (step_schema op hs) htaken with hend | ⟨before, after, rfl, ho⟩
      · exact Or.inl hend
      · exact Or.inr ⟨op :: before, after, rfl, ho⟩

/-- **One live dispatch per agent.**  In every run that records containers for attempts under
way only, no agent has two live dispatches, and in every run a row is handed out a second time
only after a recovery that had listed it as in flight. -/
theorem one_live_dispatch {db : Db} (hs : db.Schema) (hx : db.Exclusive) :
    (∀ ops, Along (step needsUserInput) (fun db op => op.Timely db) db ops →
      (runOps (step needsUserInput) db ops).Exclusive) ∧
      ∀ before agentId now middle agentId' now' item item',
        reply needsUserInput (runOps (step needsUserInput) db before) (.claim agentId now) =
          some (.claimed (some item)) →
        reply needsUserInput
            (runOps (step needsUserInput) db (before ++ .claim agentId now :: middle))
            (.claim agentId' now') = some (.claimed (some item')) →
        item'.id = item.id →
        ∃ first rest, middle = first ++ .recoverRequeue :: rest ∧
          ∃ o ∈ (runOps (step needsUserInput) db
            (before ++ .claim agentId now :: first)).orphaned, o.queueId = item.id := by
  constructor
  · intro ops hrun
    have hkeep := hrun.invariant (I := fun db => db.Schema ∧ db.Exclusive)
      (fun db op h hop => ⟨step_schema op h.1, step_exclusive h.1 h.2 hop⟩) ⟨hs, hx⟩
    exact hkeep.2
  · intro before agentId now middle agentId' now' item item' hfirst hsecond hid
    have hs₀ := run_schema needsUserInput hs before
    obtain ⟨⟨r, db₁⟩, h1, h2⟩ := bind_ok (exec_of_reply hfirst)
    obtain ⟨hr, hdb⟩ := Prod.mk.inj (Except.ok.inj h2)
    cases hr
    have htaken := (Db.claimAt_takes hs₀ h1).2
    rw [hdb] at htaken
    rcases run_taken (step_schema _ hs₀) htaken middle with hend | ⟨first, rest, rfl, ho⟩
    · obtain ⟨⟨r', db₂⟩, h3, h4⟩ := bind_ok (exec_of_reply hsecond)
      obtain ⟨hr', -⟩ := Prod.mk.inj (Except.ok.inj h4)
      cases hr'
      have hs₁ := run_schema needsUserInput hs (before ++ .claim agentId now :: middle)
      have hfree := (Db.claimAt_takes hs₁ h3).1
      rw [hid] at hfree
      exact absurd (by rw [runOps_append]; exact hend) hfree
    · refine ⟨first, rest, rfl, ?_⟩
      rw [runOps_append]
      exact ho

/-- Two tasks of one agent. -/
def twoTasks : Db where
  projects := [{ id := "home" }]
  agents := [{ id := "atlas", projectId := some "home" }]
  tasks :=
    [{ id := "report", agentId := some "atlas", projectId := some "home" },
     { id := "review", agentId := some "atlas", projectId := some "home" }]

theorem schema_twoTasks : twoTasks.Schema := by
  constructor <;> simp [twoTasks]

theorem exclusive_twoTasks : twoTasks.Exclusive := by
  simp [Db.Exclusive, twoTasks]

/-- Both tasks are queued, and the first dispatch runs in a container. -/
def firstDispatched : List Op :=
  [.enqueue "report" "atlas" 1000, .enqueue "review" "atlas" 1001, .claim none 2000,
   .setContainer 0 "sandbox"]

/-- The row of the first task while it runs. -/
def runningReport (startedAt : ℤ) : QueueItem where
  id := 1
  taskId := "report"
  agentId := "atlas"
  status := .running
  queuedAt := 1000
  startedAt := some startedAt
  attemptId := some 0

/-- The program restarts while the first dispatch runs. -/
def firstRecovered : List Op := firstDispatched ++ [.recoverRead, .recoverRequeue]

theorem firstDispatched_exclusive :
    (runOps (step fun _ => false) twoTasks firstRecovered).Exclusive ∧
      ∃ first rest, firstRecovered.drop 3 = first ++ .recoverRequeue :: rest ∧
        ∃ o ∈ (runOps (step fun _ => false) twoTasks
          (firstRecovered.take 2 ++ .claim none 2000 :: first)).orphaned, o.queueId = 1 := by
  obtain ⟨hlive, honce⟩ :=
    @one_live_dispatch (fun _ => false) twoTasks schema_twoTasks exclusive_twoTasks
  refine ⟨hlive _ (by decide +kernel), ?_⟩
  exact honce (firstRecovered.take 2) none 2000 (firstRecovered.drop 3) none 5000
    (runningReport 2000) (runningReport 5000) (by decide +kernel) (by decide +kernel) rfl

/-- The first task is cancelled while its container starts, the second one is claimed, and
then the container of the first is recorded. -/
def startedLate : List Op :=
  [.enqueue "report" "atlas" 1000, .enqueue "review" "atlas" 1001, .claim none 2000,
   .cancelTask "report" 3000, .claim none 4000, .setContainer 0 "sandbox"]

/-- A dispatch is in flight when the program restarts. -/
def restarted : List Op :=
  [.enqueue "report" "atlas" 1000, .claim none 2000, .recoverRead, .recoverRequeue]

theorem late_container_and_recovery :
    ¬(runOps (step fun _ => false) twoTasks startedLate).Exclusive ∧
      reply (fun _ => false) (runOps (step fun _ => false) twoTasks
        (restarted.take 1)) (.claim none 2000) = some (.claimed (some (runningReport 2000))) ∧
      reply (fun _ => false) (runOps (step fun _ => false) twoTasks restarted)
        (.claim none 5000) = some (.claimed (some (runningReport 5000))) := by
  refine ⟨?_, by decide +kernel, by decide +kernel⟩
  intro hx
  have hid := hx (runningReport 2000) (by decide +kernel)
    { runningReport 4000 with id := 2, taskId := "review", queuedAt := 1001, attemptId := some 1 }
    (by decide +kernel) (by decide +kernel) (by decide +kernel) rfl
  cases hid

end XpressClaw.Tasks
