import XpressClaw.Docker.Recovery
import XpressClaw.Lib.Guarantee
import XpressClaw.Lib.Runs

/-!
# Files survive a change of settings

Between any two calls the Agent's files are under one of two names.  Either the environment is
under its normal name and there is no backup, or the backup holds them and whatever is under the
normal name was made from a snapshot of it.

* `World.Retains` — this invariant.
* `Keeps` — what one call may do: the invariant holds again, and the backup is given up only
  for a replacement whose process has completed its handshake.
* `Tells` — a program that changes no container, and what it tells.
* `safe_start` — every call of `start_project_with_recovery` is as `Keeps` allows.
-/

namespace XpressClaw.Docker

open Lib

variable {α β : Type} {l : α} {owner : Owner}

/-! ## The invariant -/

namespace Files

/-- The environment is under its normal name. -/
structure Intact (l : α) (f : Files α) (c : Container α) : Prop where
  project : f.project = some c
  recovery : f.recovery = none
  owned : c.owned = true
  layer : c.layer = l
  id : c.id < f.nextId

/-- A container was made from a snapshot of the backup. -/
structure Replaces (l : α) (f : Files α) (b r : Container α) : Prop where
  owned : r.owned = true
  source : r.source = some b.id
  layer : r.layer = l
  other : r.id ≠ b.id
  id : r.id < f.nextId

/-- The environment is under the name of the backup. -/
structure Backed (l : α) (f : Files α) (b : Container α) : Prop where
  recovery : f.recovery = some b
  owned : b.owned = true
  layer : b.layer = l
  id : b.id < f.nextId
  project : ∀ r, f.project = some r → Replaces l f b r

end Files

/-- The files are retained, and the process that is held has completed its handshake. -/
structure World.Retains (l : α) (w : World α) : Prop where
  files : (∃ c, w.files.Intact l c) ∨ ∃ b, w.files.Backed l b
  process : ∀ p, w.process = some p → p.containerId ∈ w.shaken

/-- The backup is given up only for a replacement that was made from a snapshot of it and whose
process has completed its handshake. -/
def Careful (w w' : World α) : Prop :=
  ∀ b, w.files.recovery = some b → (w'.files.byId b.id).isSome ∨
    ∃ r, w.files.project = some r ∧ r.source = some b.id ∧ r.layer = b.layer ∧ r.id ∈ w.shaken

/-- What one call may do. -/
structure Keeps (l : α) (w w' : World α) : Prop where
  retains : w'.Retains l
  careful : Careful w w'

/-- Neither a container nor a process changes. -/
structure Same (w w' : World α) : Prop where
  files : w'.files = w.files
  shaken : w'.shaken = w.shaken
  process : w'.process = w.process

theorem Same.refl (w : World α) : Same w w := ⟨rfl, rfl, rfl⟩

theorem Same.trans {w w' w'' : World α} (h : Same w w') (h' : Same w' w'') : Same w w'' :=
  ⟨h'.files.trans h.files, h'.shaken.trans h.shaken, h'.process.trans h.process⟩

theorem Same.retains {w w' : World α} (h : Same w w') (hw : w.Retains l) : w'.Retains l := by
  obtain ⟨hf, hp⟩ := hw
  refine ⟨by rw [h.files]; exact hf, fun p hp' => ?_⟩
  rw [h.process] at hp'
  rw [h.shaken]
  exact hp p hp'

theorem byId_recovery {f : Files α} {b : Container α} (h : f.recovery = some b) :
    (f.byId b.id).isSome := by
  unfold Files.byId
  rw [Option.isSome_or, Option.isSome_or]
  simp [h]

theorem careful_of_files {w w' : World α} (h : w'.files = w.files) : Careful w w' := by
  intro b hb
  rw [h]
  exact Or.inl (byId_recovery hb)

theorem Same.keeps {w w' : World α} (h : Same w w') (hw : w.Retains l) : Keeps l w w' :=
  ⟨h.retains hw, careful_of_files h.files⟩

/-! ## Requests -/

theorem safe_request {g : Request α β} {w : World α} {Q : Except Error (Except String β) →
      World α → Prop} (hw : w.Retains l)
    (hfail : ∀ reason w', Same w w' → Q (.ok (.error reason)) w')
    (hdone : ∀ answer w₀ b w', Same w w₀ → g answer w₀ = .ok (b, w') →
      Keeps l w w' ∧ Q (.ok (.ok b)) w' ∧ ∀ reason, Q (.ok (.error reason)) w') :
    (request g).Safe (Keeps l) Q w := by
  have hrest : Same w { w with answers := w.answers.tail } := ⟨rfl, rfl, rfl⟩
  unfold request Request.perform
  dsimp only [Prog.Safe]
  cases hg : g (w.answers.headD {}) { w with answers := w.answers.tail } with
  | ok r =>
    obtain ⟨b, w'⟩ := r
    obtain ⟨hkeeps, hok, herror⟩ := hdone _ _ b w' hrest hg
    cases (w.answers.headD {}).fault with
    | none => exact ⟨hkeeps, hok⟩
    | some fault =>
      cases fault with
      | lost => exact ⟨hrest.keeps hw, hfail _ _ hrest⟩
      | late => exact ⟨hkeeps, herror _⟩
  | error reason =>
    cases (w.answers.headD {}).fault with
    | none => exact ⟨hrest.keeps hw, hfail _ _ hrest⟩
    | some fault =>
      cases fault with
      | lost => exact ⟨hrest.keeps hw, hfail _ _ hrest⟩
      | late => exact ⟨hrest.keeps hw, hfail _ _ hrest⟩

/-! ## Programs that change no container -/

/-- The program changes neither a container nor a process; what it returns is as `R` says. -/
def Tells (l : α) (p : Engine α β) (R : World α → β → Prop) : Prop :=
  ∀ w, w.Retains l → p.Safe (Keeps l) (fun r w' => Same w w' ∧ ∀ b, r = .ok b → R w b) w

/-- The program changes neither a container nor a process. -/
abbrev Quiet (l : α) (p : Engine α β) : Prop := Tells l p fun _ _ => True

variable {γ : Type} {p : Engine α β} {g : β → Engine α γ} {R : World α → β → Prop}

theorem Tells.quiet (h : Tells l p R) : Quiet l p := fun w hw =>
  (h w hw).mono fun _ _ hr => ⟨hr.1, fun _ _ => trivial⟩

theorem Tells.andThen {w : World α} {Q : Except Error γ → World α → Prop} (h : Tells l p R)
    (hw : w.Retains l)
    (hok : ∀ b w', Same w w' → w'.Retains l → R w b → (g b).Safe (Keeps l) Q w')
    (herror : ∀ e w', Same w w' → w'.Retains l → Q (.error e) w') :
    (p >>= g).Safe (Keeps l) Q w := by
  refine Prog.Safe.bind ((h w hw).mono fun r w' hr => ?_)
  cases r with
  | ok b => exact hok b w' hr.1 (hr.1.retains hw) (hr.2 b rfl)
  | error e => exact herror e w' hr.1 (hr.1.retains hw)

theorem Quiet.bind (h : Quiet l p) (hg : ∀ b, Quiet l (g b)) : Quiet l (p >>= g) := by
  intro w hw
  refine h.andThen hw (fun b w' hs hw' _ => ?_) fun e w' hs _ => ⟨hs, by simp⟩
  exact (hg b w' hw').mono fun r w'' hr => ⟨hs.trans hr.1, fun _ _ => trivial⟩

theorem quiet_ret (r : Except Error β) : Quiet l (.ret r : Engine α β) := fun w _ =>
  ⟨Same.refl w, fun _ _ => trivial⟩

theorem quiet_fail (e : Error) : Quiet l (.fail e : Engine α β) := quiet_ret _

theorem Quiet.attempt (h : Quiet l p) : Quiet l p.attempt := fun w hw =>
  Prog.Safe.attempt ((h w hw).mono fun _ _ hr => ⟨hr.1, fun _ _ => trivial⟩)

/-- A request that changes no container. -/
def Request.Harmless (g : Request α β) : Prop :=
  ∀ answer w b w', g answer w = .ok (b, w') → Same w w'

theorem quiet_request {g : Request α β} (hg : g.Harmless) : Quiet l (request g) := by
  intro w hw
  refine safe_request hw (fun _ w' hs => ⟨hs, fun _ _ => trivial⟩) fun answer w₀ b w' hs h => ?_
  have hsame := hs.trans (hg answer w₀ b w' h)
  exact ⟨hsame.keeps hw, ⟨hsame, fun _ _ => trivial⟩, fun _ => ⟨hsame, fun _ _ => trivial⟩⟩

theorem quiet_orError (error : String → Error) (r : Except String β) :
    Quiet l (orError error r : Engine α β) := by
  cases r with
  | ok b => exact quiet_ret _
  | error reason => exact quiet_fail _

theorem quiet_call {g : Request α β} (hg : g.Harmless) (error : String → Error) :
    Quiet l (call g error) :=
  (quiet_request hg).bind (quiet_orError error)

theorem tells_require (q : Bool) (e : Error) :
    Tells l (require q e : Engine α Unit) fun _ _ => q = true := by
  intro w _
  unfold require
  split
  · rename_i hq
    exact ⟨Same.refl w, fun _ _ => hq⟩
  · exact ⟨Same.refl w, by simp⟩

theorem tells_call {g : Request α β}
    (hg : ∀ answer w b w', g answer w = .ok (b, w') → Same w w' ∧ R w b)
    (hR : ∀ w w' b, Same w w' → R w' b → R w b) (error : String → Error) :
    Tells l (call g error) R := by
  intro w hw
  refine Prog.Safe.bind (safe_request hw (fun reason w' hs => ⟨hs, by simp⟩) ?_)
  intro answer w₀ b w' hs h
  obtain ⟨hsame, hb⟩ := hg answer w₀ b w' h
  have hall := hs.trans hsame
  refine ⟨hall.keeps hw, ⟨hall, fun b' hb' => ?_⟩, fun reason => ⟨hall, by simp⟩⟩
  cases hb'
  exact hR w w₀ b hs hb

theorem harmless_inspectRunning (r : Reference) :
    Request.Harmless (inspectRunning r : Request α Bool) := by
  intro answer w b w' h
  cases h
  exact Same.refl w

theorem harmless_stop (r : Reference) : Request.Harmless (stop r : Request α Unit) := by
  intro answer w b w' h
  unfold stop at h
  split at h
  · cases h
  · cases h
    exact ⟨rfl, rfl, rfl⟩

theorem harmless_start (r : Reference) : Request.Harmless (start r : Request α Unit) := by
  intro answer w b w' h
  unfold start at h
  split at h
  · cases h
  · cases h
    exact ⟨rfl, rfl, rfl⟩

theorem harmless_listDependents : Request.Harmless (listDependents : Request α Helpers) := by
  intro answer w b w' h
  cases h
  exact Same.refl w

theorem harmless_preflight : Request.Harmless (preflight : Request α Unit) := by
  intro answer w b w' h
  cases h
  exact Same.refl w

theorem harmless_inspect (r : Reference) :
    Request.Harmless (inspect r : Request α (Option (Container α))) := by
  intro answer w b w' h
  cases h
  exact Same.refl w

theorem harmless_probe : Request.Harmless (probe : Request α Bool) := by
  intro answer w b w' h
  cases h
  exact Same.refl w

theorem tells_inspectOptional (owner : Owner) (r : Reference) :
    Tells l (inspectOptional owner r : Engine α _) fun w c => w.files.find r = c := by
  refine tells_call (fun answer w c w' h => ?_) (fun w w' c hs h => ?_) _
  · cases h
    exact ⟨Same.refl w, rfl⟩
  · rw [← h, hs.files]

theorem quiet_isContainerRunning (r : Reference) :
    Quiet l (isContainerRunning r : Engine α Bool) :=
  (quiet_request (harmless_inspectRunning r)).bind fun _ => quiet_ret _

theorem quiet_stopPreserving : Quiet l (stopPreserving : Engine α Unit) := by
  refine (quiet_isContainerRunning _).bind fun running => ?_
  split
  · refine (quiet_request (harmless_stop _)).bind fun answer => ?_
    cases answer with
    | ok _ => exact quiet_ret _
    | error _ => exact (quiet_isContainerRunning _).bind fun _ => (tells_require _ _).quiet
  · exact quiet_ret _

theorem quiet_containerDependents (owner : Owner) (r : Reference) :
    Quiet l (containerDependents owner r : Engine α Helpers) := by
  refine (tells_inspectOptional owner r).quiet.bind fun parent => ?_
  cases parent with
  | none => exact quiet_ret _
  | some _ => exact quiet_call harmless_listDependents _

theorem quiet_ensureNoContainerDependents (owner : Owner) (r : Reference) :
    Quiet l (ensureNoContainerDependents owner r : Engine α Unit) :=
  (quiet_containerDependents owner r).bind fun _ => (tells_require _ _).quiet

theorem quiet_ensureDependentsStopped (owner : Owner) (r : Reference) :
    Quiet l (ensureDependentsStopped owner r : Engine α (List String)) := by
  refine (quiet_containerDependents owner r).bind fun helpers => ?_
  refine (tells_require _ _).quiet.bind fun _ => ?_
  split
  · exact quiet_ret _
  · refine (tells_inspectOptional owner r).quiet.bind fun parent => ?_
    refine (tells_require _ _).quiet.bind fun _ => ?_
    exact (tells_require _ _).quiet.bind fun _ => quiet_ret _

theorem tells_retainedSpecMatches (owner : Owner) (c : Container α) (requested : ContainerSpec) :
    Tells l (retainedSpecMatches owner c requested) fun _ _ => c.owned = true := by
  intro w _
  unfold retainedSpecMatches
  split
  · rename_i howned
    exact ⟨Same.refl w, fun _ _ => howned⟩
  · exact ⟨Same.refl w, by simp⟩

theorem quiet_validateRetainedSpec (owner : Owner) (c : Container α) (requested : ContainerSpec) :
    Quiet l (validateRetainedSpec owner c requested) :=
  (tells_retainedSpecMatches owner c requested).quiet.bind fun _ => (tells_require _ _).quiet

theorem tells_validateRecoveryPair (b r : Container α) :
    Tells l (validateRecoveryPair b r) fun _ _ => r.owned = true ∧ r.source = some b.id := by
  intro w hw
  refine (tells_require _ _).andThen hw (fun _ w' hs hw' howned => ?_) fun e w' hs _ =>
    ⟨hs, by simp⟩
  refine (tells_require _ _ w' hw').mono fun r' w'' hr => ⟨hs.trans hr.1, fun u hu => ?_⟩
  exact ⟨howned, by simpa using hr.2 u hu⟩

/-! ## Requests that change containers -/

theorem safe_call {g : Request α β} {error : String → Error} {w : World α}
    {Q : Except Error β → World α → Prop} (hw : w.Retains l)
    (hfail : ∀ reason w', Same w w' → Q (.error (error reason)) w')
    (hdone : ∀ answer w₀ b w', Same w w₀ → g answer w₀ = .ok (b, w') →
      Keeps l w w' ∧ Q (.ok b) w' ∧ ∀ reason, Q (.error (error reason)) w') :
    (call g error).Safe (Keeps l) Q w :=
  Prog.Safe.bind (safe_request hw hfail hdone)

namespace Files

variable {f : Files α} {b c r : Container α}

theorem Intact.byId (h : f.Intact l c) : f.byId c.id = some c := by
  simp [Files.byId, h.project]

theorem Backed.byId (h : f.Backed l b) : f.byId b.id = some b := by
  unfold Files.byId
  cases hp : f.project with
  | none => simp [h.recovery]
  | some r => simp [h.recovery, (h.project r hp).other]

theorem Backed.drop_replacement (h : f.Backed l b) (hp : f.project = some r) :
    (f.drop r.id).Backed l b ∧ (f.drop r.id).project = none := by
  have hother := (h.project r hp).other
  have hnone : (f.drop r.id).project = none := by simp [drop, hp]
  refine ⟨⟨?_, h.owned, h.layer, h.id, fun r' hr' => ?_⟩, hnone⟩
  · simp [drop, h.recovery, Ne.symm hother]
  · rw [hnone] at hr'
    cases hr'

theorem Backed.drop_backup (h : f.Backed l b) (hp : f.project = some r) :
    (f.drop b.id).Intact l r := by
  obtain ⟨howned, -, hlayer, hother, hid⟩ := h.project r hp
  exact ⟨by simp [drop, hp, hother], by simp [drop, h.recovery], howned, hlayer, hid⟩

theorem Intact.back (h : f.Intact l c) :
    ({ f.drop c.id with recovery := some c } : Files α).Backed l c := by
  refine ⟨rfl, h.owned, h.layer, h.id, fun r hr => ?_⟩
  simp only [drop, h.project, ne_eq, Option.filter_eq_some_iff, Option.some.injEq,
    decide_eq_true_eq] at hr
  exact absurd (by rw [hr.1]) hr.2

theorem Backed.restore (h : f.Backed l b) :
    ({ f.drop b.id with project := some b } : Files α).Intact l b :=
  ⟨rfl, by simp [drop, h.recovery], h.owned, h.layer, h.id⟩

end Files

theorem World.Retains.of_files {w w' : World α} (hw : w.Retains l)
    (hf : (∃ c, w'.files.Intact l c) ∨ ∃ b, w'.files.Backed l b)
    (hs : w'.shaken = w.shaken) (hp : w'.process = w.process) : w'.Retains l := by
  refine ⟨hf, fun p hp' => ?_⟩
  rw [hp] at hp'
  rw [hs]
  exact hw.process p hp'

theorem World.Retains.backed {w : World α} (hw : w.Retains l) {b : Container α}
    (hb : w.files.recovery = some b) : w.files.Backed l b := by
  rcases hw.files with ⟨c, hc⟩ | ⟨b', hb'⟩
  · rw [hc.recovery] at hb
    cases hb
  · rw [hb'.recovery] at hb
    cases hb
    exact hb'

theorem World.Retains.intact {w : World α} (hw : w.Retains l)
    (hb : w.files.recovery = none) : ∃ c, w.files.Intact l c := by
  rcases hw.files with hc | ⟨b, hb'⟩
  · exact hc
  · rw [hb'.recovery] at hb
    cases hb

/-! ## Rolling back -/

theorem safe_removeReplacement {w : World α} (hw : w.Retains l) {b : Container α}
    (hb : w.files.Backed l b) : (removeReplacement owner b).Safe (Keeps l) (fun r w' =>
      w'.Retains l ∧ ∀ u, r = .ok u → w'.files.Backed l b ∧ w'.files.project = none) w := by
  refine (tells_inspectOptional owner _).andThen hw (fun c w₁ hs₁ hw₁ hc => ?_)
    fun e w₁ _ hw₁ => ⟨hw₁, by simp⟩
  have hb₁ : w₁.files.Backed l b := by
    rw [hs₁.files]
    exact hb
  cases c with
  | none =>
    refine ⟨hw₁, fun _ _ => ⟨hb₁, ?_⟩⟩
    rw [hs₁.files]
    exact hc
  | some r =>
    refine (tells_validateRecoveryPair b r).andThen hw₁ (fun _ w₂ hs₂ hw₂ _ => ?_)
      fun e w₂ _ hw₂ => ⟨hw₂, by simp⟩
    refine (quiet_ensureNoContainerDependents owner _).andThen hw₂ (fun _ w₃ hs₃ hw₃ _ => ?_)
      fun e w₃ _ hw₃ => ⟨hw₃, by simp⟩
    refine (tells_inspectOptional owner _).andThen hw₃ (fun _ w₄ hs₄ hw₄ _ => ?_)
      fun e w₄ _ hw₄ => ⟨hw₄, by simp⟩
    have hfiles : w₄.files = w₁.files := ((hs₂.trans hs₃).trans hs₄).files
    have hb₄ : w₄.files.Backed l b := by
      rw [hfiles]
      exact hb₁
    have hp₄ : w₄.files.project = some r := by
      rw [hfiles, hs₁.files]
      exact hc
    refine safe_call hw₄ (fun _ w₅ hs₅ => ⟨hs₅.retains hw₄, by simp⟩) ?_
    intro answer w₀ u w₅ hs₀ h
    have hp₀ : w₀.files.project = some r := by
      rw [hs₀.files]
      exact hp₄
    have hb₀ : w₀.files.Backed l b := by
      rw [hs₀.files]
      exact hb₄
    simp only [remove, Files.find, hp₀] at h
    cases h
    obtain ⟨hdropped, hnone⟩ := hb₀.drop_replacement hp₀
    have hret : World.Retains l ({ w₀ with
        files := w₀.files.drop r.id
        running := w₀.running.filter (· ≠ r.id) } : World α) :=
      (hs₀.retains hw₄).of_files (Or.inr ⟨b, hdropped⟩) rfl rfl
    refine ⟨⟨hret, fun b' hb' => ?_⟩, ⟨hret, fun _ _ => ⟨hdropped, hnone⟩⟩,
      fun _ => ⟨hret, by simp⟩⟩
    rw [hb₄.recovery] at hb'
    cases hb'
    exact Or.inl (byId_recovery hdropped.recovery)

/-- The backup is renamed. -/
theorem safe_restore {w : World α} (hw : w.Retains l) {b : Container α}
    (hb : w.files.Backed l b) (hp : w.files.project = none) (error : String → Error) :
    (call (rename b.id .project) error).Safe (Keeps l) (fun r w' =>
      w'.Retains l ∧ ∀ u, r = .ok u → w'.files.recovery = none) w := by
  refine safe_call hw (fun _ w₁ hs₁ => ⟨hs₁.retains hw, by simp⟩) ?_
  intro answer w₀ u w₁ hs₀ h
  have hb₀ : w₀.files.Backed l b := by
    rw [hs₀.files]
    exact hb
  have hp₀ : w₀.files.project = none := by
    rw [hs₀.files]
    exact hp
  have hdrop : (w₀.files.drop b.id).project = none := by simp [Files.drop, hp₀]
  simp only [rename, hb₀.byId, Files.give, hdrop, Option.isSome_none, Bool.false_eq_true,
    if_false] at h
  cases h
  have hret : World.Retains l ({ w₀ with
      files := { w₀.files.drop b.id with project := some b } } : World α) :=
    (hs₀.retains hw).of_files (Or.inl ⟨b, hb₀.restore⟩) rfl rfl
  refine ⟨⟨hret, fun b' hb' => ?_⟩, ⟨hret, fun _ _ => hb₀.restore.recovery⟩,
    fun _ => ⟨hret, by simp⟩⟩
  rw [hb.recovery] at hb'
  cases hb'
  rw [hb₀.restore.byId]
  exact Or.inl rfl

theorem safe_rollback {w : World α} (hw : w.Retains l) :
    (rollbackProjectRecovery owner).Safe (Keeps l) (fun r w' =>
      w'.Retains l ∧ ∀ u, r = .ok u → w'.files.recovery = none) w := by
  refine (tells_inspectOptional owner _).andThen hw (fun backup w₁ hs₁ hw₁ hb => ?_)
    fun e w₁ _ hw₁ => ⟨hw₁, by simp⟩
  cases backup with
  | none =>
    refine ⟨hw₁, fun _ _ => ?_⟩
    rw [hs₁.files]
    exact hb
  | some b =>
    refine (tells_require _ _).andThen hw₁ (fun _ w₂ hs₂ hw₂ _ => ?_)
      fun e w₂ _ hw₂ => ⟨hw₂, by simp⟩
    have hb₂ : w₂.files.Backed l b := by
      rw [(hs₁.trans hs₂).files]
      exact hw.backed hb
    refine Prog.Safe.bind ((safe_removeReplacement hw₂ hb₂).mono fun r w₃ h₃ => ?_)
    cases r with
    | error e => exact ⟨h₃.1, by simp⟩
    | ok _ =>
      obtain ⟨hb₃, hp₃⟩ := h₃.2 _ rfl
      refine Prog.Safe.bind ((safe_restore h₃.1 hb₃ hp₃ _).mono fun r w₄ h₄ => ?_)
      cases r with
      | error e => exact ⟨h₄.1, by simp⟩
      | ok _ =>
        have hr₄ := h₄.2 _ rfl
        refine (quiet_call (harmless_start _) _ w₄ h₄.1).mono fun r w₅ h₅ =>
          ⟨h₅.1.retains h₄.1, fun _ _ => ?_⟩
        rw [h₅.1.files]
        exact hr₄

/-! ## Changing the environment -/

/-- A backup is made: the environment is renamed. -/
theorem safe_backUp {w : World α} (hw : w.Retains l) {c : Container α}
    (hc : w.files.Intact l c) : (request (rename c.id .recovery)).Safe (Keeps l) (fun r w' =>
      ∃ a, r = .ok a ∧ w'.Retains l ∧
        ∀ u, a = .ok u → w'.files.Backed l c ∧ w'.files.project = none) w := by
  refine safe_request hw (fun _ w₁ hs₁ => ⟨_, rfl, hs₁.retains hw, by simp⟩) ?_
  intro answer w₀ u w₁ hs₀ h
  have hc₀ : w₀.files.Intact l c := by
    rw [hs₀.files]
    exact hc
  have hdrop : (w₀.files.drop c.id).recovery = none := by simp [Files.drop, hc₀.recovery]
  have hnone : (w₀.files.drop c.id).project = none := by simp [Files.drop, hc₀.project]
  simp only [rename, hc₀.byId, Files.give, hdrop, Option.isSome_none, Bool.false_eq_true,
    if_false] at h
  cases h
  have hret : World.Retains l ({ w₀ with
      files := { w₀.files.drop c.id with recovery := some c } } : World α) :=
    (hs₀.retains hw).of_files (Or.inr ⟨c, hc₀.back⟩) rfl rfl
  refine ⟨⟨hret, fun b hb => ?_⟩, ⟨_, rfl, hret, fun _ _ => ⟨hc₀.back, hnone⟩⟩,
    fun _ => ⟨_, rfl, hret, by simp⟩⟩
  rw [hc.recovery] at hb
  cases hb

/-- The replacement is created from the snapshot and started. -/
theorem safe_createReplacement {w : World α} (hw : w.Retains l) {b : Container α}
    (hb : w.files.Backed l b) (requested : ContainerSpec) :
    (createAndStart (replacementOf requested b.id l)).Safe (Keeps l) (fun r w' =>
      w'.Retains l ∧ ∀ n, r = .ok n → ∃ c, w'.files.project = some c) w := by
  refine Prog.Safe.bind (safe_call hw (fun _ w₁ hs₁ => ⟨hs₁.retains hw, by simp⟩) ?_)
  intro answer w₀ n w₁ hs₀ h
  have hb₀ : w₀.files.Backed l b := by
    rw [hs₀.files]
    exact hb
  unfold create at h
  split at h
  · cases h
  · cases h
    have hid := hb₀.id
    have hback : Files.Backed l ({ w₀.files with
        project := some { replacementOf requested b.id l w₀.files.nextId with
          id := w₀.files.nextId }
        nextId := w₀.files.nextId + 1 } : Files α) b := by
      refine ⟨hb₀.recovery, hb₀.owned, hb₀.layer, Nat.lt_succ_of_lt hid, fun r hr => ?_⟩
      cases hr
      exact ⟨rfl, rfl, rfl, Nat.ne_of_gt hid, Nat.lt_succ_self _⟩
    have hret : World.Retains l ({ w₀ with
        files := { w₀.files with
          project := some { replacementOf requested b.id l w₀.files.nextId with
            id := w₀.files.nextId }
          nextId := w₀.files.nextId + 1 } } : World α) :=
      (hs₀.retains hw).of_files (Or.inr ⟨b, hback⟩) rfl rfl
    refine ⟨⟨hret, fun b' hb' => ?_⟩, ?_, fun _ => ⟨hret, by simp⟩⟩
    · rw [hb.recovery] at hb'
      cases hb'
      exact Or.inl (byId_recovery hback.recovery)
    · refine (quiet_call (harmless_start _) _).andThen hret (fun _ w₂ hs₂ hw₂ _ => ?_)
        fun e w₂ _ hw₂ => ⟨hw₂, by simp⟩
      refine ⟨hw₂, fun _ _ => ?_⟩
      rw [hs₂.files]
      exact ⟨_, rfl⟩

theorem safe_resumeOriginal {w : World α} (hw : w.Retains l) (n : ℕ) (error : Error) :
    (resumeOriginal n error : Engine α Unit).Safe (Keeps l) (fun r w' =>
      w'.Retains l ∧ ∀ u, r = .ok u → ∃ c, w'.files.project = some c) w :=
  (quiet_request (harmless_start _)).andThen hw (fun _ _ _ hw₁ _ => ⟨hw₁, by simp⟩)
    fun _ _ _ hw₁ => ⟨hw₁, by simp⟩

theorem safe_undoReplacement {w : World α} (hw : w.Retains l) (error : Error) :
    (undoReplacement owner error).Safe (Keeps l) (fun r w' =>
      w'.Retains l ∧ ∀ u, r = .ok u → ∃ c, w'.files.project = some c) w := by
  refine Prog.Safe.bind (Prog.Safe.attempt ((safe_rollback hw).mono fun r w₁ h₁ => ?_))
  cases r with
  | error e => exact ⟨h₁.1, by simp⟩
  | ok _ => exact ⟨h₁.1, by simp⟩

theorem safe_replaceEnvironment {w : World α} (hw : w.Retains l) {c : Container α}
    (hc : w.files.Intact l c) (requested : ContainerSpec) :
    (replaceEnvironment owner requested c.id l).Safe (Keeps l) (fun r w' =>
      w'.Retains l ∧ ∀ u, r = .ok u → ∃ c, w'.files.project = some c) w := by
  refine Prog.Safe.bind ((safe_backUp hw hc).mono fun r w₁ h₁ => ?_)
  obtain ⟨a, rfl, hw₁, hback⟩ := h₁
  cases a with
  | error reason => exact safe_resumeOriginal hw₁ _ _
  | ok u =>
    obtain ⟨hb₁, -⟩ := hback u rfl
    refine Prog.Safe.bind (Prog.Safe.attempt
      ((safe_createReplacement hw₁ hb₁ requested).mono fun r w₂ h₂ => ?_))
    cases r with
    | error e => exact safe_undoReplacement h₂.1 e
    | ok n => exact ⟨h₂.1, fun _ _ => h₂.2 n rfl⟩

/-- A snapshot of the environment has its files. -/
theorem safe_commit {w : World α} (hw : w.Retains l) {c : Container α}
    (hc : w.files.Intact l c) : (request (commit c.id)).Safe (Keeps l) (fun r w' =>
      ∃ a, r = .ok a ∧ Same w w' ∧ ∀ snapshot, a = .ok snapshot → snapshot = l) w := by
  refine safe_request hw (fun _ w₁ hs₁ => ⟨_, rfl, hs₁, by simp⟩) ?_
  intro answer w₀ snapshot w₁ hs₀ h
  have hfound : w₀.files.byId c.id = some c := by
    rw [hs₀.files]
    exact hc.byId
  simp only [commit, hfound] at h
  cases h
  refine ⟨hs₀.keeps hw, ⟨_, rfl, hs₀, fun s hs => ?_⟩, fun _ => ⟨_, rfl, hs₀, by simp⟩⟩
  cases hs
  exact hc.layer

theorem safe_changeEnvironment {w : World α} (hw : w.Retains l) {c : Container α}
    (hc : w.files.Intact l c) (requested : ContainerSpec) :
    (changeEnvironment owner requested c.id).Safe (Keeps l) (fun r w' =>
      w'.Retains l ∧ ∀ u, r = .ok u → ∃ c, w'.files.project = some c) w := by
  refine (quiet_ensureDependentsStopped owner _).andThen hw (fun _ w₁ hs₁ hw₁ _ => ?_)
    fun e w₁ _ hw₁ => ⟨hw₁, by simp⟩
  refine (quiet_call harmless_preflight _).andThen hw₁ (fun _ w₂ hs₂ hw₂ _ => ?_)
    fun e w₂ _ hw₂ => ⟨hw₂, by simp⟩
  refine quiet_stopPreserving.andThen hw₂ (fun _ w₃ hs₃ hw₃ _ => ?_)
    fun e w₃ _ hw₃ => ⟨hw₃, by simp⟩
  have hc₃ : w₃.files.Intact l c := by
    rw [((hs₁.trans hs₂).trans hs₃).files]
    exact hc
  refine Prog.Safe.bind ((safe_commit hw₃ hc₃).mono fun r w₄ h₄ => ?_)
  obtain ⟨a, rfl, hs₄, hfiles⟩ := h₄
  have hw₄ := hs₄.retains hw₃
  have hc₄ : w₄.files.Intact l c := by
    rw [hs₄.files]
    exact hc₃
  cases a with
  | error reason => exact safe_resumeOriginal hw₄ _ _
  | ok snapshot =>
    obtain rfl := hfiles snapshot rfl
    exact safe_replaceEnvironment hw₄ hc₄ requested

theorem safe_recover {w : World α} (hw : w.Retains l) (requested : ContainerSpec) :
    (recoverProjectConfiguration owner requested).Safe (Keeps l) (fun r w' =>
      w'.Retains l ∧ ∀ u, r = .ok u → ∃ c, w'.files.project = some c) w := by
  refine Prog.Safe.bind ((safe_rollback hw).mono fun r w₁ h₁ => ?_)
  obtain ⟨hw₁, hok⟩ := h₁
  cases r with
  | error e => exact ⟨hw₁, by simp⟩
  | ok _ =>
    obtain ⟨c, hc⟩ := hw₁.intact (hok _ rfl)
    refine (tells_inspectOptional owner _).andThen hw₁ (fun original w₂ hs₂ hw₂ ho => ?_)
      fun e w₂ _ hw₂ => ⟨hw₂, by simp⟩
    obtain rfl : some c = original := hc.project.symm.trans ho
    have hc₂ : w₂.files.Intact l c := by
      rw [hs₂.files]
      exact hc
    refine (tells_retainedSpecMatches owner c requested).andThen hw₂
      (fun fits w₃ hs₃ hw₃ _ => ?_) fun e w₃ _ hw₃ => ⟨hw₃, by simp⟩
    have hc₃ : w₃.files.Intact l c := by
      rw [hs₃.files]
      exact hc₂
    cases fits with
    | true => exact ⟨hw₃, fun _ _ => ⟨c, hc₃.project⟩⟩
    | false => exact safe_changeEnvironment hw₃ hc₃ requested

/-! ## Starting the process -/

theorem safe_hold {w : World α} (hw : w.Retains l) {process : Option Process}
    (hp : ∀ p, process = some p → p.containerId ∈ w.shaken) :
    (hold process : Engine α Unit).Safe (Keeps l) (fun _ w' =>
      w'.Retains l ∧ w'.files = w.files ∧ w'.shaken = w.shaken) w := by
  have hret : World.Retains l ({ w with process := process } : World α) := ⟨hw.files, hp⟩
  exact ⟨⟨hret, careful_of_files rfl⟩, hret, rfl, rfl⟩

theorem tells_validateProjectConfiguration (owner : Owner) (spec : ContainerSpec) :
    Tells l (validateProjectConfiguration owner spec : Engine α (Option ℕ)) fun w n =>
      w.files.project.map (·.id) = n := by
  intro w hw
  refine (tells_inspectOptional owner _).andThen hw (fun container w₁ hs₁ hw₁ hc => ?_)
    fun e w₁ hs₁ _ => ⟨hs₁, by simp⟩
  have hproject : w.files.project = container := hc
  cases container with
  | none => exact ⟨hs₁, fun n hn => by cases hn; rw [hproject]; rfl⟩
  | some c =>
    refine (quiet_validateRetainedSpec owner c spec).andThen hw₁ (fun _ w₂ hs₂ _ _ => ?_)
      fun e w₂ hs₂ _ => ⟨hs₁.trans hs₂, by simp⟩
    exact ⟨hs₁.trans hs₂, fun n hn => by cases hn; rw [hproject]; rfl⟩

theorem tells_reusable (spec : ContainerSpec) (retained : Option ℕ) (held : Option Process) :
    Tells l (reusable spec retained held : Engine α Bool) fun _ reuse => reuse = true →
      ∃ p, held = some p ∧ retained = some p.containerId := by
  intro w hw
  unfold reusable
  cases held with
  | none => exact ⟨Same.refl w, fun b hb => by cases hb; simp⟩
  | some process =>
    refine (quiet_request harmless_probe).andThen hw (fun alive w₁ hs₁ hw₁ _ => ?_)
      fun e w₁ hs₁ _ => ⟨hs₁, by simp⟩
    refine (quiet_isContainerRunning _).andThen hw₁ (fun running w₂ hs₂ _ _ => ?_)
      fun e w₂ hs₂ _ => ⟨hs₁.trans hs₂, by simp⟩
    refine ⟨hs₁.trans hs₂, fun b hb htrue => ⟨process, rfl, ?_⟩⟩
    cases hb
    simp only [Bool.and_eq_true, decide_eq_true_eq] at htrue
    exact htrue.2

/-- A retained environment is started as it is. -/
theorem safe_launchProject {w : World α} (hw : w.Retains l) {c : Container α}
    (hc : w.files.project = some c) (baseLayer : String → α) (spec : ContainerSpec) :
    (launchProject baseLayer owner spec).Safe (Keeps l) (fun r w' =>
      Same w w' ∧ ∀ n, r = .ok n → n = c.id) w := by
  refine (tells_inspectOptional owner _).andThen hw (fun existing w₁ hs₁ hw₁ he => ?_)
    fun e w₁ hs₁ _ => ⟨hs₁, by simp⟩
  obtain rfl : some c = existing := hc.symm.trans he
  refine (quiet_validateRetainedSpec owner c spec).andThen hw₁ (fun _ w₂ hs₂ hw₂ _ => ?_)
    fun e w₂ hs₂ _ => ⟨hs₁.trans hs₂, by simp⟩
  refine quiet_stopPreserving.andThen hw₂ (fun _ w₃ hs₃ hw₃ _ => ?_)
    fun e w₃ hs₃ _ => ⟨(hs₁.trans hs₂).trans hs₃, by simp⟩
  have hs := (hs₁.trans hs₂).trans hs₃
  refine (quiet_call (harmless_start _) _).andThen hw₃ (fun _ w₄ hs₄ _ _ => ?_)
    fun e w₄ hs₄ _ => ⟨hs.trans hs₄, by simp⟩
  exact ⟨hs.trans hs₄, fun n hn => by cases hn; rfl⟩

theorem safe_attachProcess {w : World α} (hw : w.Retains l) (n : ℕ) :
    (attachProcess n : Engine α ℕ).Safe (Keeps l) (fun r w' =>
      w'.Retains l ∧ w'.files = w.files ∧ ∀ m, r = .ok m → m = n ∧ n ∈ w'.shaken) w := by
  have hfail {w₁ : World α} (hs₁ : w₁.files = w.files) (hw₁ : w₁.Retains l) (error : Error) :
      (stopAndFail error : Engine α ℕ).Safe (Keeps l) (fun r w' =>
        w'.Retains l ∧ w'.files = w.files ∧ ∀ m, r = .ok m → m = n ∧ n ∈ w'.shaken) w₁ := by
    refine quiet_stopPreserving.attempt.andThen hw₁ (fun _ w₂ hs₂ hw₂ _ => ?_)
      fun e w₂ hs₂ hw₂ => ⟨hw₂, hs₂.files.trans hs₁, by simp⟩
    exact ⟨hw₂, hs₂.files.trans hs₁, by simp⟩
  refine (quiet_request (harmless_inspect _)).andThen hw (fun attached w₁ hs₁ hw₁ _ => ?_)
    fun e w₁ hs₁ hw₁ => ⟨hw₁, hs₁.files, by simp⟩
  cases attached with
  | error error => exact hfail hs₁.files hw₁ _
  | ok _ =>
    refine Prog.Safe.bind (safe_request hw₁ (fun reason w₂ hs₂ => ?_) ?_)
    · exact hfail (hs₁.trans hs₂).files (hs₂.retains hw₁) _
    · intro answer w₀ u w₂ hs₀ h
      cases h
      have hw₀ := hs₀.retains hw₁
      have hret : World.Retains l ({ w₀ with shaken := n :: w₀.shaken } : World α) :=
        ⟨hw₀.files, fun p hp => List.mem_cons_of_mem _ (hw₀.process p hp)⟩
      have hfiles : ({ w₀ with shaken := n :: w₀.shaken } : World α).files = w.files :=
        (hs₁.trans hs₀).files
      refine ⟨⟨hret, careful_of_files hs₀.files⟩, ⟨hret, hfiles, fun m hm => ?_⟩, fun reason =>
        hfail hfiles hret _⟩
      cases hm
      exact ⟨rfl, List.mem_cons_self⟩

theorem safe_startProcess {w : World α} (hw : w.Retains l) {c : Container α}
    (hc : w.files.project = some c) (baseLayer : String → α) (spec : ContainerSpec) :
    (startProcess baseLayer owner spec).Safe (Keeps l) (fun r w' =>
      w'.Retains l ∧ w'.files = w.files ∧ ∀ n, r = .ok n → n = c.id ∧ n ∈ w'.shaken) w := by
  refine Prog.Safe.bind ((safe_hold hw (by simp)).mono fun r w₁ h₁ => ?_)
  obtain ⟨hw₁, hf₁, -⟩ := h₁
  cases r with
  | error e => exact ⟨hw₁, hf₁, by simp⟩
  | ok _ =>
    refine quiet_stopPreserving.andThen hw₁ (fun _ w₂ hs₂ hw₂ _ => ?_)
      fun e w₂ hs₂ hw₂ => ⟨hw₂, hs₂.files.trans hf₁, by simp⟩
    have hf₂ := hs₂.files.trans hf₁
    refine Prog.Safe.bind ((safe_launchProject hw₂ (hf₂ ▸ hc) baseLayer spec).mono
      fun r w₃ h₃ => ?_)
    obtain ⟨hs₃, hn₃⟩ := h₃
    have hw₃ := hs₃.retains hw₂
    have hf₃ := hs₃.files.trans hf₂
    cases r with
    | error e => exact ⟨hw₃, hf₃, by simp⟩
    | ok n =>
      obtain rfl := hn₃ n rfl
      refine Prog.Safe.bind ((safe_attachProcess hw₃ c.id).mono fun r w₄ h₄ => ?_)
      obtain ⟨hw₄, hf₄, hm₄⟩ := h₄
      cases r with
      | error e => exact ⟨hw₄, hf₄.trans hf₃, by simp⟩
      | ok m =>
        obtain ⟨rfl, hshaken⟩ := hm₄ m rfl
        refine Prog.Safe.bind ((safe_hold hw₄ ?_).mono fun r w₅ h₅ => ?_)
        · intro p hp
          cases hp
          exact hshaken
        · obtain ⟨hw₅, hf₅, hsh₅⟩ := h₅
          have hf := hf₅.trans (hf₄.trans hf₃)
          cases r with
          | error e => exact ⟨hw₅, hf, by simp⟩
          | ok _ =>
            refine ⟨hw₅, hf, fun n hn => ?_⟩
            cases hn
            exact ⟨rfl, by rw [hsh₅]; exact hshaken⟩

theorem safe_getOrStart {w : World α} (hw : w.Retains l) {c : Container α}
    (hc : w.files.project = some c) (baseLayer : String → α) (spec : ContainerSpec) :
    (getOrStart baseLayer owner spec).Safe (Keeps l) (fun r w' =>
      w'.Retains l ∧ w'.files = w.files ∧ ∀ n, r = .ok n → n = c.id ∧ n ∈ w'.shaken) w := by
  refine (tells_validateProjectConfiguration owner spec).andThen hw
    (fun retained w₁ hs₁ hw₁ hr => ?_) fun e w₁ hs₁ hw₁ => ⟨hw₁, hs₁.files, by simp⟩
  rw [hc, Option.map_some] at hr
  subst hr
  refine Prog.Safe.bind ⟨(Same.refl w₁).keeps hw₁, ?_⟩
  refine (tells_reusable spec _ w₁.process).andThen hw₁ (fun reuse w₂ hs₂ hw₂ hreuse => ?_)
    fun e w₂ hs₂ hw₂ => ⟨hw₂, (hs₁.trans hs₂).files, by simp⟩
  have hs := hs₁.trans hs₂
  cases reuse with
  | true =>
    obtain ⟨p, hp, hid⟩ := hreuse rfl
    refine ⟨hw₂, hs.files, fun n hn => ?_⟩
    cases hn
    refine ⟨rfl, ?_⟩
    rw [Option.some.inj hid, hs₂.shaken]
    exact hw₁.process p hp
  | false =>
    refine (safe_startProcess hw₂ (by rw [hs.files]; exact hc) baseLayer spec).mono
      fun r w₃ h₃ => ?_
    exact ⟨h₃.1, h₃.2.1.trans hs.files, h₃.2.2⟩

/-! ## Giving up the backup -/

theorem keeps_giveUp {w w₀ w' : World α} {b r : Container α} (hw : w.Retains l)
    (hs₀ : Same w w₀) (hb : w.files.Backed l b) (hp : w.files.project = some r)
    (hr : r.id ∈ w.shaken) (hf : w'.files.Intact l r) (hs : w'.shaken = w₀.shaken)
    (hprocess : w'.process = w₀.process) : Keeps l w w' := by
  refine ⟨(hs₀.retains hw).of_files (Or.inl ⟨r, hf⟩) hs hprocess, fun b' hb' => ?_⟩
  rw [hb.recovery] at hb'
  cases hb'
  obtain ⟨-, hsource, hlayer, -⟩ := hb.project r hp
  exact Or.inr ⟨r, hp, hsource, hlayer.trans hb.layer.symm, hr⟩

theorem safe_removeBackup {w : World α} (hw : w.Retains l) {b r : Container α}
    (hb : w.files.Backed l b) (hp : w.files.project = some r) (hr : r.id ∈ w.shaken) :
    (removeContainerReference owner (.id b.id)).Safe (Keeps l) (fun q w' =>
      w'.Retains l ∧ ∀ u, q = .ok u → w'.files.Intact l r ∧ w'.shaken = w.shaken) w := by
  refine (quiet_ensureNoContainerDependents owner _).andThen hw (fun _ w₁ hs₁ hw₁ _ => ?_)
    fun e w₁ _ hw₁ => ⟨hw₁, by simp⟩
  refine (tells_inspectOptional owner _).andThen hw₁ (fun _ w₂ hs₂ hw₂ _ => ?_)
    fun e w₂ _ hw₂ => ⟨hw₂, by simp⟩
  have hs := hs₁.trans hs₂
  have hb₂ : w₂.files.Backed l b := by
    rw [hs.files]
    exact hb
  have hp₂ : w₂.files.project = some r := by
    rw [hs.files]
    exact hp
  refine safe_call hw₂ (fun _ w₃ hs₃ => ⟨hs₃.retains hw₂, by simp⟩) ?_
  intro answer w₀ u w₃ hs₀ h
  have hb₀ : w₀.files.Backed l b := by
    rw [hs₀.files]
    exact hb₂
  have hintact := hb₀.drop_backup (by rw [hs₀.files]; exact hp₂)
  simp only [remove, Files.find, hb₀.byId] at h
  cases h
  have hkeeps : Keeps l w₂ ({ w₀ with
      files := w₀.files.drop b.id
      running := w₀.running.filter (· ≠ b.id) } : World α) :=
    keeps_giveUp hw₂ hs₀ hb₂ hp₂ (by rw [hs.shaken]; exact hr) hintact rfl rfl
  exact ⟨hkeeps, ⟨hkeeps.retains, fun _ _ => ⟨hintact, (hs.trans hs₀).shaken⟩⟩,
    fun _ => ⟨hkeeps.retains, by simp⟩⟩

theorem safe_preserveEnvironment {w : World α} (hw : w.Retains l) {b r : Container α}
    (hb : w.files.Backed l b) (hp : w.files.project = some r) (hr : r.id ∈ w.shaken) :
    (preserveEnvironment owner b.id).Safe (Keeps l) (fun q w' =>
      w'.Retains l ∧ ∀ u, q = .ok u → w'.files.Intact l r ∧ w'.shaken = w.shaken) w := by
  refine (tells_inspectOptional owner _).andThen hw (fun _ w₁ hs₁ hw₁ _ => ?_)
    fun e w₁ _ hw₁ => ⟨hw₁, by simp⟩
  refine (tells_require _ _).andThen hw₁ (fun _ w₂ hs₂ hw₂ _ => ?_)
    fun e w₂ _ hw₂ => ⟨hw₂, by simp⟩
  refine (quiet_call (harmless_stop _) _).andThen hw₂ (fun _ w₃ hs₃ hw₃ _ => ?_)
    fun e w₃ _ hw₃ => ⟨hw₃, by simp⟩
  have hs := (hs₁.trans hs₂).trans hs₃
  have hb₃ : w₃.files.Backed l b := by
    rw [hs.files]
    exact hb
  have hp₃ : w₃.files.project = some r := by
    rw [hs.files]
    exact hp
  refine safe_call hw₃ (fun _ w₄ hs₄ => ⟨hs₄.retains hw₃, by simp⟩) ?_
  intro answer w₀ u w₄ hs₀ h
  have hb₀ : w₀.files.Backed l b := by
    rw [hs₀.files]
    exact hb₃
  have hdropped := hb₀.drop_backup (by rw [hs₀.files]; exact hp₃)
  have hintact : Files.Intact l ({ w₀.files.drop b.id with
      preserved := (w₀.files.drop b.id).preserved ++ [b] } : Files α) r :=
    ⟨hdropped.project, hdropped.recovery, hdropped.owned, hdropped.layer, hdropped.id⟩
  simp only [rename, hb₀.byId, Files.give] at h
  cases h
  have hkeeps : Keeps l w₃ ({ w₀ with
      files := { w₀.files.drop b.id with
        preserved := (w₀.files.drop b.id).preserved ++ [b] } } : World α) :=
    keeps_giveUp hw₃ hs₀ hb₃ hp₃ (by rw [hs.shaken]; exact hr) hintact rfl rfl
  exact ⟨hkeeps, ⟨hkeeps.retains, fun _ _ => ⟨hintact, (hs.trans hs₀).shaken⟩⟩,
    fun _ => ⟨hkeeps.retains, by simp⟩⟩

theorem safe_finish {w : World α} (hw : w.Retains l) {c : Container α}
    (hc : w.files.project = some c) (hshaken : c.id ∈ w.shaken) :
    (finishProjectRecovery owner).Safe (Keeps l) (fun q w' =>
      w'.Retains l ∧ ∀ u, q = .ok u → w'.files.Intact l c ∧ w'.shaken = w.shaken) w := by
  refine (tells_inspectOptional owner _).andThen hw (fun backup w₁ hs₁ hw₁ hb => ?_)
    fun e w₁ _ hw₁ => ⟨hw₁, by simp⟩
  cases backup with
  | none =>
    refine ⟨hw₁, fun _ _ => ⟨?_, hs₁.shaken⟩⟩
    obtain ⟨c', hc'⟩ := hw.intact hb
    obtain rfl : c' = c := Option.some.inj (hc'.project.symm.trans hc)
    rw [hs₁.files]
    exact hc'
  | some b =>
    refine (tells_require _ _).andThen hw₁ (fun _ w₂ hs₂ hw₂ _ => ?_)
      fun e w₂ _ hw₂ => ⟨hw₂, by simp⟩
    refine (tells_inspectOptional owner _).andThen hw₂ (fun replacement w₃ hs₃ hw₃ hr => ?_)
      fun e w₃ _ hw₃ => ⟨hw₃, by simp⟩
    cases replacement with
    | none => exact ⟨hw₃, by simp⟩
    | some r =>
      refine (tells_validateRecoveryPair b r).andThen hw₃ (fun _ w₄ hs₄ hw₄ _ => ?_)
        fun e w₄ _ hw₄ => ⟨hw₄, by simp⟩
      refine (quiet_ensureDependentsStopped owner _).andThen hw₄
        (fun dependents w₅ hs₅ hw₅ _ => ?_) fun e w₅ _ hw₅ => ⟨hw₅, by simp⟩
      have hs := (((hs₁.trans hs₂).trans hs₃).trans hs₄).trans hs₅
      have hb₅ : w₅.files.Backed l b := by
        rw [hs.files]
        exact hw.backed hb
      have hc₅ : w₅.files.project = some c := by
        rw [hs.files]
        exact hc
      have hsh₅ : c.id ∈ w₅.shaken := by
        rw [hs.shaken]
        exact hshaken
      split
      · refine (safe_removeBackup hw₅ hb₅ hc₅ hsh₅).mono fun q w₆ h₆ =>
          ⟨h₆.1, fun u hu => ⟨(h₆.2 u hu).1, (h₆.2 u hu).2.trans hs.shaken⟩⟩
      · refine (safe_preserveEnvironment hw₅ hb₅ hc₅ hsh₅).mono fun q w₆ h₆ =>
          ⟨h₆.1, fun u hu => ⟨(h₆.2 u hu).1, (h₆.2 u hu).2.trans hs.shaken⟩⟩

/-! ## Starting with recovery -/

theorem safe_undoChange {w : World α} (hw : w.Retains l) (error : Error) :
    (undoChange owner error).Safe (Keeps l) (fun r w' =>
      w'.Retains l ∧ ∀ n, r ≠ .ok n) w := by
  refine Prog.Safe.bind (Prog.Safe.attempt ((safe_rollback hw).mono fun r w₁ h₁ => ?_))
  cases r with
  | error e => exact ⟨h₁.1, by simp⟩
  | ok _ => exact ⟨h₁.1, by simp⟩

/-- A backup always calls for recovery. -/
theorem tells_projectConfigurationNeedsRecovery (owner : Owner) (requested : ContainerSpec) :
    Tells l (projectConfigurationNeedsRecovery owner requested : Engine α Bool) fun w needed =>
      needed = false → w.files.recovery = none := by
  intro w hw
  refine (tells_inspectOptional owner _).andThen hw (fun backup w₁ hs₁ hw₁ hb => ?_)
    fun e w₁ hs₁ _ => ⟨hs₁, by simp⟩
  cases backup with
  | some backup =>
    refine (tells_require _ _).andThen hw₁ (fun _ w₂ hs₂ _ _ => ?_)
      fun e w₂ hs₂ _ => ⟨hs₁.trans hs₂, by simp⟩
    refine ⟨hs₁.trans hs₂, fun needed hneeded hfalse => ?_⟩
    cases hneeded
    cases hfalse
  | none =>
    refine (tells_inspectOptional owner _).andThen hw₁ (fun container w₂ hs₂ hw₂ _ => ?_)
      fun e w₂ hs₂ _ => ⟨hs₁.trans hs₂, by simp⟩
    have hs := hs₁.trans hs₂
    cases container with
    | none => exact ⟨hs, fun _ _ _ => hb⟩
    | some c =>
      refine (tells_retainedSpecMatches owner c requested).andThen hw₂
        (fun fits w₃ hs₃ _ _ => ?_) fun e w₃ hs₃ _ => ⟨hs.trans hs₃, by simp⟩
      exact ⟨hs.trans hs₃, fun _ _ _ => hb⟩

theorem safe_bringUpToDate {w : World α} (hw : w.Retains l) (spec : ContainerSpec)
    {needed : Bool} (hneeded : needed = false → w.files.recovery = none) :
    (bringUpToDate owner spec needed).Safe (Keeps l) (fun r w' =>
      w'.Retains l ∧ ∀ u, r = .ok u → ∃ c, w'.files.project = some c) w := by
  cases needed with
  | false =>
    obtain ⟨c, hc⟩ := hw.intact (hneeded rfl)
    exact ⟨hw, fun _ _ => ⟨c, hc.project⟩⟩
  | true =>
    refine Prog.Safe.bind ((safe_recover hw spec).mono fun r w₁ h₁ => ?_)
    obtain ⟨hw₁, hproject⟩ := h₁
    cases r with
    | error e => exact ⟨hw₁, by simp⟩
    | ok u =>
      refine (safe_hold hw₁ (by simp)).mono fun r w₂ h₂ => ⟨h₂.1, fun _ _ => ?_⟩
      rw [h₂.2.1]
      exact hproject u rfl

/-- A start that gives a process leaves no backup, and the process runs in the environment. -/
def Settled (l : α) (w : World α) (n : ℕ) : Prop :=
  ∃ c, w.files.Intact l c ∧ c.id = n ∧ n ∈ w.shaken

theorem safe_recoverAndStart {w : World α} (hw : w.Retains l) (baseLayer : String → α)
    (spec : ContainerSpec) {needed : Bool}
    (hneeded : needed = false → w.files.recovery = none) :
    (recoverAndStart baseLayer owner spec needed).Safe (Keeps l) (fun r w' =>
      w'.Retains l ∧ ∀ n, r = .ok n → Settled l w' n) w := by
  refine Prog.Safe.bind ((safe_bringUpToDate hw spec hneeded).mono fun r w₁ h₁ => ?_)
  obtain ⟨hw₁, hproject⟩ := h₁
  cases r with
  | error e => exact ⟨hw₁, by simp⟩
  | ok u =>
    obtain ⟨c, hc⟩ := hproject u rfl
    refine Prog.Safe.bind (Prog.Safe.attempt
      ((safe_getOrStart hw₁ hc baseLayer spec).mono fun r w₂ h₂ => ?_))
    obtain ⟨hw₂, hf₂, hn₂⟩ := h₂
    cases r with
    | error e =>
      refine (safe_undoChange hw₂ e).mono fun r w₃ h₃ => ⟨h₃.1, fun n hn => ?_⟩
      exact absurd hn (h₃.2 n)
    | ok n =>
      obtain ⟨rfl, hshaken⟩ := hn₂ n rfl
      have hc₂ : w₂.files.project = some c := by
        rw [hf₂]
        exact hc
      refine Prog.Safe.bind ((safe_finish hw₂ hc₂ hshaken).mono fun r w₃ h₃ => ?_)
      obtain ⟨hw₃, hintact⟩ := h₃
      cases r with
      | error e => exact ⟨hw₃, by simp⟩
      | ok v =>
        obtain ⟨hc₃, hs₃⟩ := hintact v rfl
        refine ⟨hw₃, fun n hn => ⟨c, hc₃, ?_⟩⟩
        cases hn
        exact ⟨rfl, by rw [hs₃]; exact hshaken⟩

/-- Every call of a start keeps the files, and a start that gives a process leaves them under
the normal name. -/
theorem safe_start {w : World α} (hw : w.Retains l) (baseLayer : String → α)
    (spec : ContainerSpec) (found : Preparation) :
    (startProjectWithRecovery baseLayer owner spec found).Safe (Keeps l) (fun r w' =>
      w'.Retains l ∧ ∀ n, r = .ok (some n) → Settled l w' n) w := by
  refine (tells_projectConfigurationNeedsRecovery owner spec).andThen hw
    (fun needed w₁ hs₁ hw₁ hnone => ?_) fun e w₁ _ hw₁ => ⟨hw₁, by simp⟩
  cases needed with
  | true =>
    refine (tells_require _ _).andThen hw₁ (fun _ w₂ _ hw₂ _ => ?_)
      fun e w₂ _ hw₂ => ⟨hw₂, by simp⟩
    cases found.unchanged with
    | false => exact ⟨hw₂, by simp⟩
    | true =>
      refine (tells_projectConfigurationNeedsRecovery owner spec).andThen hw₂
        (fun needed w₃ hs₃ hw₃ hneeded => ?_) fun e w₃ _ hw₃ => ⟨hw₃, by simp⟩
      refine Prog.Safe.bind ((safe_recoverAndStart hw₃ baseLayer spec
        fun h => ?_).mono fun r w₄ h₄ => ?_)
      · rw [hs₃.files]
        exact hneeded h
      · cases r with
        | error e => exact ⟨h₄.1, by simp⟩
        | ok n => exact ⟨h₄.1, fun m hm => h₄.2 m (by cases hm; rfl)⟩
  | false =>
    obtain ⟨c, hc⟩ := hw.intact (hnone rfl)
    have hc₁ : w₁.files.Intact l c := by
      rw [hs₁.files]
      exact hc
    refine Prog.Safe.bind ((safe_getOrStart hw₁ hc₁.project baseLayer spec).mono
      fun r w₂ h₂ => ?_)
    obtain ⟨hw₂, hf₂, hn₂⟩ := h₂
    cases r with
    | error e => exact ⟨hw₂, by simp⟩
    | ok n =>
      obtain ⟨rfl, hshaken⟩ := hn₂ n rfl
      refine ⟨hw₂, fun m hm => ⟨c, ?_, ?_⟩⟩
      · rw [hf₂]
        exact hc₁
      · cases hm
        exact ⟨rfl, hshaken⟩

/-! ## Any number of starts -/

/-- The containers of the Agent. -/
def Files.all (f : Files α) : List (Container α) :=
  f.project.toList ++ f.recovery.toList ++ f.preserved

/-- The files are in a container of the Agent. -/
def Files.Holds (l : α) (f : Files α) : Prop := ∃ c ∈ f.all, c.owned = true ∧ c.layer = l

/-- A start of the Agent's process: what is asked for, and what happens to it. -/
structure Attempt where
  spec : ContainerSpec
  found : Preparation := {}
  /-- The containers that run when it begins. -/
  running : List ℕ := []
  answers : List Answer := []
  /-- The control plane is cut off after this many calls. -/
  crash : Option ℕ := none

namespace Attempt

variable (baseLayer : String → α) (owner : Owner)

def program (a : Attempt) : Engine α (Option ℕ) :=
  startProjectWithRecovery baseLayer owner a.spec a.found

/-- The engine as the start finds it. -/
def begin (a : Attempt) (w : World α) : World α :=
  { w with
    running := a.running
    answers := a.answers }

/-- The engine after a start.  A control plane that was cut off holds no process. -/
def step (w : World α) (a : Attempt) : World α :=
  match a.crash with
  | none => (a.program baseLayer owner).final (a.begin w)
  | some k =>
      { ((a.program baseLayer owner).trace (a.begin w)).getD k (a.begin w) with process := none }

end Attempt

theorem World.Retains.holds {w : World α} (hw : w.Retains l) : w.files.Holds l := by
  rcases hw.files with ⟨c, hc⟩ | ⟨b, hb⟩
  · exact ⟨c, by simp [Files.all, hc.project], hc.owned, hc.layer⟩
  · exact ⟨b, by simp [Files.all, hb.recovery], hb.owned, hb.layer⟩

theorem Attempt.retains_begin {w : World α} (hw : w.Retains l) (a : Attempt) :
    (a.begin w).Retains l :=
  ⟨hw.files, hw.process⟩

theorem Attempt.safe {w : World α} (hw : w.Retains l) (baseLayer : String → α) (owner : Owner)
    (a : Attempt) : (a.program baseLayer owner).Safe (Keeps l) (fun r w' =>
      w'.Retains l ∧ ∀ n, r = .ok (some n) → Settled l w' n) (a.begin w) :=
  safe_start (retains_begin hw a) baseLayer a.spec a.found

theorem Attempt.retains_trace {w : World α} (hw : w.Retains l) (baseLayer : String → α)
    (owner : Owner) (a : Attempt) :
    ∀ w' ∈ (a.program baseLayer owner).trace (a.begin w), w'.Retains l := fun w' hw' =>
  Prog.reflTransGen_keeps (fun _ _ h _ => h.retains)
    ((a.safe hw baseLayer owner).trace w' hw') (retains_begin hw a)

theorem Attempt.retains_step {w : World α} (hw : w.Retains l) (baseLayer : String → α)
    (owner : Owner) (a : Attempt) : (a.step baseLayer owner w).Retains l := by
  have htrace := retains_trace hw baseLayer owner a
  unfold Attempt.step
  split
  · exact htrace _ (Prog.final_mem_trace _ _)
  · rename_i k hk
    have hcut : World.Retains l
        (((a.program baseLayer owner).trace (a.begin w)).getD k (a.begin w)) := by
      rw [List.getD_eq_getElem?_getD]
      cases hget : ((a.program baseLayer owner).trace (a.begin w))[k]? with
      | none => exact retains_begin hw a
      | some w' => exact htrace w' (List.mem_of_getElem? hget)
    exact ⟨hcut.files, by simp⟩

/-- However many starts there were, with calls that failed and control planes that were cut off:
the files are in a container of the Agent at every moment of the next start, it gives up a
backup only for a replacement that has shaken hands, and when it gives a process the files are
under the normal name again. -/
theorem settings_change_keeps_files (baseLayer : String → α) (owner : Owner) {w₀ : World α}
    {c : Container α} (hc : w₀.files.Intact l c)
    (hprocess : ∀ p, w₀.process = some p → p.containerId ∈ w₀.shaken)
    (earlier : List Attempt) (a : Attempt) :
    let w := a.begin (runOps (Attempt.step baseLayer owner) w₀ earlier)
    let p := a.program baseLayer owner
    (∀ w' ∈ p.trace w, w'.files.Holds l) ∧ (∀ t ∈ p.steps w, Careful t.1 t.2) ∧
      ∀ n, (p.run w).1 = some (.ok (some n)) → Settled l (p.run w).2 n := by
  intro w p
  have hw₀ : w₀.Retains l := ⟨Or.inl ⟨c, hc⟩, hprocess⟩
  have hstep : ∀ (w : World α) (a : Attempt), w.Retains l →
      (a.step baseLayer owner w).Retains l := fun w a hw =>
    Attempt.retains_step hw baseLayer owner a
  have hrun := runOps_invariant hstep hw₀ earlier
  have hsafe := a.safe hrun baseLayer owner
  refine ⟨fun w' hw' => ?_, fun t ht => (hsafe.steps t ht).careful, fun n hn => ?_⟩
  · exact (Attempt.retains_trace hrun baseLayer owner a w' hw').holds
  · have hresult : p.run w = (some (.ok (some n)), (p.run w).2) := by rw [← hn]
    exact (hsafe.result hresult).2 n rfl

def exampleEnvironment : Container String where
  id := 0
  image := "node"
  fingerprint := ⟨"node", "s"⟩
  layer := "notes"

def exampleWorld : World String where
  files :=
    { project := some exampleEnvironment
      nextId := 1 }

/-- New settings, a control plane that ends after the backup was made, and a second start. -/
theorem settings_change_keeps_files_retry :
    Settled "notes" (((Attempt.program id ⟨"Ada", "ada"⟩ { spec := ⟨"node", "t"⟩ }).run
      (Attempt.begin { spec := ⟨"node", "t"⟩ } (runOps (Attempt.step id ⟨"Ada", "ada"⟩) exampleWorld
        [{ spec := ⟨"node", "t"⟩, crash := some 14 }])))).2 2 := by
  have hc : exampleWorld.files.Intact "notes" exampleEnvironment :=
    ⟨rfl, rfl, rfl, rfl, by decide⟩
  exact (settings_change_keeps_files id ⟨"Ada", "ada"⟩ hc (by simp [exampleWorld])
    [{ spec := ⟨"node", "t"⟩, crash := some 14 }] { spec := ⟨"node", "t"⟩ }).2.2 2
    (by decide +kernel)

end XpressClaw.Docker
