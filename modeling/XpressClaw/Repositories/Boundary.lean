import XpressClaw.Repositories.Selection

/-!
# The boundary of a turn

`apply_boundary` takes up what is pending and what the workspace makes of the selection.

* `candidate_sortByPath` — sorting the candidates does not change which one has a path.
* `nextDesired` — the desired selection of a row on which nothing is pending.
* `desired_cases` — the desired selection of every row.
* `Settles` — after the boundary nothing more is to be changed.
* `applyBoundary_settles_iff` — the rows of which that is so.
-/

namespace XpressClaw.Repositories

open Lib

/-! ## Candidates -/

section Candidates

variable {w : Workspace} {candidates : List Candidate} {c : Candidate} {p q : String}

theorem candidate_path (h : candidate candidates p = some c) : c.relativePath = p := by
  simpa using List.find?_some h

/-- Sorting keeps the order of the candidates of one path. -/
theorem filter_sortByPath (candidates : List Candidate) (p : String) :
    (sortByPath candidates).filter (·.relativePath = p) =
      candidates.filter (·.relativePath = p) := by
  set le : Candidate → Candidate → Bool := fun a b => a.relativePath ≤ b.relativePath with hle
  have htrans (a b c : Candidate) : le a b = true → le b c = true → le a c = true := by
    simp only [hle, decide_eq_true_eq]
    exact le_trans
  have htotal (a b : Candidate) : (le a b || le b a) = true := by
    simp only [hle, Bool.or_eq_true, decide_eq_true_eq]
    exact le_total _ _
  have hsorted : (candidates.filter (·.relativePath = p)).Pairwise fun a b => le a b = true := by
    refine List.pairwise_of_forall_mem_list fun a ha b hb => ?_
    simp only [List.mem_filter, decide_eq_true_eq] at ha hb
    simp [hle, ha.2, hb.2]
  have hsub := (List.sublist_mergeSort htrans htotal hsorted List.filter_sublist).filter
    (·.relativePath = p)
  simp only [List.filter_filter, Bool.and_self] at hsub
  have hlength : ((sortByPath candidates).filter (·.relativePath = p)).length =
      (candidates.filter (·.relativePath = p)).length :=
    ((List.mergeSort_perm candidates le).filter _).length_eq
  exact (hsub.eq_of_length hlength.symm).symm

theorem candidate_sortByPath (candidates : List Candidate) (p : String) :
    candidate (sortByPath candidates) p = candidate candidates p := by
  rw [candidate, candidate, ← List.head?_filter, ← List.head?_filter, filter_sortByPath]

theorem automaticCandidate_sortByPath (candidates : List Candidate) (truncated : Bool) :
    automaticCandidate (sortByPath candidates) truncated =
      automaticCandidate candidates truncated := by
  have hroot := candidate_sortByPath candidates "."
  have hlength : (sortByPath candidates).length = candidates.length := List.length_mergeSort _
  unfold candidate at hroot
  rw [automaticCandidate, automaticCandidate, hroot, hlength]
  by_cases hone : candidates.length = 1
  · obtain ⟨c, rfl⟩ := List.length_eq_one_iff.1 hone
    rw [sortByPath, List.mergeSort_singleton]
  · simp [hone]

/-- What is adopted is the candidate of its path. -/
theorem candidate_of_automatic {truncated : Bool}
    (h : automaticCandidate candidates truncated = some c) :
    candidate candidates c.relativePath = some c := by
  unfold automaticCandidate at h
  rcases Option.or_eq_some_iff.1 h with hroot | ⟨-, hone⟩
  · rw [candidate_path hroot]
    exact hroot
  · split at hone
    · rename_i hlength
      rw [Bool.and_eq_true, decide_eq_true_eq] at hlength
      obtain ⟨d, rfl⟩ := List.length_eq_one_iff.1 hlength.2
      cases hone
      simp [candidate]
    · cases hone

theorem candidate_addAuthorized (h : candidate candidates p = some c) (q : String) :
    candidate (w.addAuthorized candidates q) p = some c := by
  unfold Workspace.addAuthorized
  split
  · exact h
  · split
    · rw [candidate, List.find?_append]
      unfold candidate at h
      rw [h]
      rfl
    · exact h

/-- The candidates where one path is asked for. -/
def Workspace.candidatesAt (w : Workspace) (path : Option String) : List Candidate :=
  path.toList.foldl w.addAuthorized w.discovered

theorem candidatesAt_of_discovered (h : candidate w.discovered p = some c) :
    w.candidatesAt (some p) = w.discovered := by
  have hany : w.discovered.any (·.relativePath = p) = true := by
    rw [List.any_eq_true]
    exact ⟨c, List.mem_of_find?_eq_some h, by simpa using candidate_path h⟩
  simp [Workspace.candidatesAt, Workspace.addAuthorized, hany]

theorem candidate_candidates {s : StoredSelection}
    (h : candidate (w.candidatesAt s.relativePath) p = some c) :
    candidate (w.candidates (some s)) p = some c := by
  rw [Workspace.candidates, candidate_sortByPath]
  unfold Workspace.candidatesAt at h
  cases hpath : s.relativePath <;> cases hpending : s.pendingRelativePath <;>
    rw [hpath] at h <;> simp only [List.reduceOption_cons_of_some, List.reduceOption_cons_of_none,
      List.reduceOption_nil, List.foldl_cons, List.foldl_nil, Option.toList] at h ⊢
  · exact h
  · exact candidate_addAuthorized h _
  · exact h
  · exact candidate_addAuthorized h _

end Candidates

/-! ## What an inspection finds -/

/-- The cases of `resolve`, each with what it depends on. -/
inductive Resolved (candidates : List Candidate) (truncated : Bool)
    (stored : Option StoredSelection) : Option Candidate → DesiredSelection → SelectionState → Prop
  | pendingClear (h : stored.bind (·.pendingMode) = some .cleared) :
      Resolved candidates truncated stored
        ((stored.bind (·.relativePath)).bind (candidate candidates)) ⟨none, none, .cleared⟩ .pending
  | proposed (c : Candidate) (h : stored.bind (·.pendingMode) ≠ some .cleared)
      (hc : (stored.bind (·.pendingRelativePath)).bind (candidate candidates) = some c) :
      Resolved candidates truncated stored
        ((stored.bind (·.relativePath)).bind (candidate candidates))
        ⟨some c.relativePath, some c.identity, .manual⟩ .pending
  | stale (q : String) (h : stored.bind (·.pendingMode) ≠ some .cleared)
      (hq : stored.bind (·.pendingRelativePath) = some q) (hc : candidate candidates q = none) :
      Resolved candidates truncated stored
        ((stored.bind (·.relativePath)).bind (candidate candidates))
        ⟨stored.bind (·.relativePath),
          ((stored.bind (·.relativePath)).bind (candidate candidates)).map (·.identity),
          (stored.map (·.mode)).getD .automatic⟩ .missing
  | cleared (hq : stored.bind (·.pendingRelativePath) = none)
      (h : stored.any (·.mode = .cleared) = true) :
      Resolved candidates truncated stored none ⟨none, none, .cleared⟩ .cleared
  | selected (c : Candidate) (state : SelectionState)
      (hq : stored.bind (·.pendingRelativePath) = none)
      (h : stored.any (·.mode = .cleared) = false)
      (hc : (stored.bind (·.relativePath)).bind (candidate candidates) = some c) :
      Resolved candidates truncated stored (some c)
        ⟨some c.relativePath, some c.identity, (stored.map (·.mode)).getD .automatic⟩ state
  | adopted (c : Candidate) (hq : stored.bind (·.pendingRelativePath) = none)
      (h : (stored.map (·.mode)).getD .automatic = .automatic)
      (hp : stored.bind (·.relativePath) = none)
      (hc : automaticCandidate candidates truncated = some c) :
      Resolved candidates truncated stored none
        ⟨some c.relativePath, some c.identity, .automatic⟩ .pending
  | left (state : SelectionState) (hq : stored.bind (·.pendingRelativePath) = none)
      (h : stored.any (·.mode = .cleared) = false)
      (hc : (stored.bind (·.relativePath)).bind (candidate candidates) = none)
      (ha : (stored.map (·.mode)).getD .automatic = .automatic →
        stored.bind (·.relativePath) = none → automaticCandidate candidates truncated = none) :
      Resolved candidates truncated stored none
        ⟨stored.bind (·.relativePath), none, (stored.map (·.mode)).getD .automatic⟩ state

/-- **One inspection** is in one of the cases. -/
theorem resolve_resolved (candidates : List Candidate) (truncated : Bool)
    (stored : Option StoredSelection) :
    Resolved candidates truncated stored (resolve candidates truncated stored).1
      (resolve candidates truncated stored).2.1 (resolve candidates truncated stored).2.2 := by
  unfold resolve
  dsimp only
  split
  · rename_i h
    exact .pendingClear h
  rename_i hmode
  split
  · rename_i c hc
    exact .proposed c hmode hc
  rename_i hpending
  split
  · rename_i hsome
    obtain ⟨q, hq⟩ := Option.isSome_iff_exists.1 hsome
    rw [hq, Option.bind_some] at hpending
    exact .stale q hmode hq hpending
  rename_i hnone
  have hq := Option.not_isSome_iff_eq_none.1 hnone
  split
  · rename_i h
    exact .cleared hq h
  rename_i hcleared
  have hcleared := Bool.eq_false_iff.2 hcleared
  split
  · rename_i c hc
    exact .selected c _ hq hcleared hc
  rename_i hselected
  split
  · rename_i c hc
    split at hc
    · rename_i hauto
      exact .adopted c hq hauto.1 hauto.2 hc
    · cases hc
  · rename_i hauto
    refine .left _ hq hcleared hselected fun hmode hpath => ?_
    rwa [if_pos ⟨hmode, hpath⟩] at hauto

theorem inspect_resolved (w : Workspace) (stored : Option StoredSelection) :
    ∃ active d state, Resolved (w.candidates stored) w.truncated stored active d state ∧
      (w.inspect stored).active = active ∧ (w.inspect stored).desired = d ∧
      (w.inspect stored).state = state :=
  ⟨_, _, _, resolve_resolved _ _ _, rfl, rfl, rfl⟩

section Allowed

variable {stored : Option StoredSelection}

theorem path_of_cleared (h : (stored.map (·.mode)).getD .automatic = .cleared) :
    stored.bind (·.relativePath) = none := by
  cases stored with
  | none => rfl
  | some s => exact s.allowed.2.resolve_left (not_not.2 h)

/-- A desired selection meets the checks of the table. -/
theorem desired_allowed (w : Workspace) (stored : Option StoredSelection) :
    Allowed (w.inspect stored).desired.relativePath (w.inspect stored).desired.repositoryIdentity
      (w.inspect stored).desired.mode := by
  obtain ⟨active, d, state, hcase, -, hd, -⟩ := inspect_resolved w stored
  rw [hd]
  have hmode (h : stored.any (·.mode = .cleared) = false) :
      (stored.map (·.mode)).getD .automatic ≠ .cleared := by
    cases stored with
    | none => decide
    | some s => simpa using h
  cases hcase with
  | pendingClear h => exact ⟨Or.inr rfl, Or.inr rfl⟩
  | proposed c h hc => exact ⟨Or.inl rfl, Or.inl (by simp)⟩
  | stale q h hq hc =>
    refine ⟨?_, ?_⟩
    · cases hp : stored.bind (·.relativePath) with
      | none => exact Or.inr rfl
      | some p => exact Or.inl rfl
    · rw [or_iff_not_imp_left, not_not]
      exact path_of_cleared
  | cleared hq h => exact ⟨Or.inr rfl, Or.inr rfl⟩
  | selected c state hq h hc => exact ⟨Or.inl rfl, Or.inl (hmode h)⟩
  | adopted c hq h hp hc => exact ⟨Or.inl rfl, Or.inl (by simp)⟩
  | left state hq h hc ha => exact ⟨Or.inr rfl, Or.inl (hmode h)⟩

end Allowed

/-! ## The row that a boundary leaves -/

/-- A row on which nothing is pending. -/
def DesiredSelection.row (d : DesiredSelection) (generation : ℤ)
    (h : Allowed d.relativePath d.repositoryIdentity d.mode) : StoredSelection where
  relativePath := d.relativePath
  repositoryIdentity := d.repositoryIdentity
  mode := d.mode
  pendingRelativePath := none
  pendingMode := none
  generation
  allowed := h
  pending_allowed := Or.inl ⟨rfl, rfl⟩

/-- A selection that a boundary leaves as it is. -/
def Stable (w : Workspace) (d : DesiredSelection) : Prop :=
  match d.relativePath with
  | none => d.mode = .automatic → automaticCandidate w.discovered w.truncated = none
  | some p => (candidate (w.candidatesAt (some p)) p).map (·.identity) = d.repositoryIdentity

section Next

variable {w : Workspace} {d : DesiredSelection} {generation : ℤ} {c : Candidate} {p q : String}

theorem candidates_row (h : Allowed d.relativePath d.repositoryIdentity d.mode) :
    w.candidates (some (d.row generation h)) = sortByPath (w.candidatesAt d.relativePath) := by
  obtain ⟨path, identity, mode⟩ := d
  cases path <;> rfl

/-- **The next inspection** desires what is stored exactly when it is stable. -/
theorem desired_row_iff (h : Allowed d.relativePath d.repositoryIdentity d.mode) :
    (w.inspect (some (d.row generation h))).desired = d ↔ Stable w d := by
  obtain ⟨active, d', state, hcase, -, hd, -⟩ := inspect_resolved w (some (d.row generation h))
  rw [hd]
  rw [candidates_row h] at hcase
  obtain ⟨path, identity, mode⟩ := d
  cases hcase with
  | pendingClear hm => cases hm
  | proposed c hm hc => cases hc
  | stale q hm hq hc => cases hq
  | cleared hq hm =>
    have hmode : mode = .cleared := by simpa [DesiredSelection.row] using hm
    subst hmode
    have hpath : path = none := h.2.resolve_left (by simp)
    subst hpath
    have hidentity : identity = none := h.1.resolve_left (by simp)
    subst hidentity
    exact iff_of_true rfl fun hmode => by cases hmode
  | selected c state hq hm hc =>
    simp only [DesiredSelection.row, Option.bind_some] at hc
    obtain ⟨p, rfl, hc⟩ := Option.bind_eq_some_iff.1 hc
    rw [candidate_sortByPath] at hc
    simp [Stable, hc, candidate_path hc, DesiredSelection.row]
  | adopted c hq hm hp hc =>
    simp only [DesiredSelection.row, Option.bind_some, Option.map_some, Option.getD_some]
      at hm hp
    subst hm hp
    rw [automaticCandidate_sortByPath] at hc
    have hc : automaticCandidate w.discovered w.truncated = some c := hc
    simp [Stable, hc]
  | left state hq hm hc ha =>
    cases path with
    | none =>
      have hidentity : identity = none := h.1.resolve_left (by simp)
      subst hidentity
      refine iff_of_true rfl fun hmode => ?_
      have hnone := ha hmode rfl
      rw [automaticCandidate_sortByPath] at hnone
      exact hnone
    | some p =>
      have hnone : candidate (w.candidatesAt (some p)) p = none := by
        rw [← candidate_sortByPath]
        exact hc
      simp [Stable, hnone, DesiredSelection.row]

theorem candidates_of_notPending {s : StoredSelection} (h : s.pendingRelativePath = none) :
    w.candidates (some s) = sortByPath (w.candidatesAt s.relativePath) := by
  rw [Workspace.candidates, h, Workspace.candidatesAt]
  cases s.relativePath <;> rfl

/-- A proposal at whose path there is no repository, of an Agent that has none and takes one up
by itself. -/
def AdoptsAfterStale (w : Workspace) (s : StoredSelection) : Prop :=
  s.mode = .automatic ∧ s.relativePath = none ∧
    (∃ q, s.pendingRelativePath = some q ∧ candidate (w.candidates (some s)) q = none) ∧
    (automaticCandidate w.discovered w.truncated).isSome

/-- The repository at the proposed path, or else at the selected one, is also found where no
other path is asked for. -/
def FoundAlone (w : Workspace) (s : StoredSelection) : Prop :=
  ∀ q, s.pendingRelativePath = some q → ∀ c,
    (candidate (w.candidates (some s)) q).or
        (s.relativePath.bind (candidate (w.candidates (some s)))) = some c →
      (candidate (w.candidatesAt (some c.relativePath)) c.relativePath).map (·.identity) =
        some c.identity

/-- A row on which no path is pending has a desired selection that is stable. -/
theorem stable_of_notPending {stored : Option StoredSelection} {active : Option Candidate}
    {state : SelectionState}
    (hcase : Resolved (w.candidates stored) w.truncated stored active d state)
    (hpending : stored.bind (·.pendingRelativePath) = none) : Stable w d := by
  cases hcase with
  | pendingClear h => exact fun hmode => by cases hmode
  | proposed c h hc =>
    rw [hpending] at hc
    cases hc
  | stale q h hq hc =>
    rw [hpending] at hq
    cases hq
  | cleared hq h => exact fun hmode => by cases hmode
  | selected c state hq h hc =>
    cases stored with
    | none => cases hc
    | some s =>
      obtain ⟨p, hp, hc⟩ := Option.bind_eq_some_iff.1 hc
      have hpath := candidate_path hc
      rw [candidates_of_notPending hpending, candidate_sortByPath,
        show s.relativePath = some p from hp] at hc
      simp [Stable, hpath, hc]
  | adopted c hq h hp hc =>
    have hfound : candidate w.discovered c.relativePath = some c := by
      cases stored with
      | none => exact candidate_of_automatic hc
      | some s =>
        rw [candidates_of_notPending hpending, automaticCandidate_sortByPath,
          show s.relativePath = none from hp] at hc
        exact candidate_of_automatic hc
    simp [Stable, candidatesAt_of_discovered hfound, hfound]
  | left state hq h hc ha =>
    cases stored with
    | none => exact fun _ => ha rfl rfl
    | some s =>
      rw [candidates_of_notPending hpending] at hc ha
      simp only [Option.bind_some, Option.map_some, Option.getD_some] at hc ha ⊢
      cases hp : s.relativePath with
      | none =>
        intro hmode
        have hnone := ha hmode hp
        rw [automaticCandidate_sortByPath, hp] at hnone
        exact hnone
      | some p =>
        rw [hp, Option.bind_some, candidate_sortByPath] at hc
        simp [Stable, hc]

/-- **What a boundary stores is stable**, unless a proposal leads it astray. -/
theorem stable_desired_iff (w : Workspace) (stored : Option StoredSelection) :
    Stable w (w.inspect stored).desired ↔
      ∀ s, stored = some s → ¬AdoptsAfterStale w s ∧ FoundAlone w s := by
  obtain ⟨active, d, state, hcase, -, hd, -⟩ := inspect_resolved w stored
  rw [hd]
  cases hpending : stored.bind (·.pendingRelativePath) with
  | none =>
    refine iff_of_true (stable_of_notPending hcase hpending) ?_
    rintro s rfl
    rw [Option.bind_some] at hpending
    refine ⟨?_, fun q hq => ?_⟩
    · rintro ⟨-, -, ⟨q, hq, -⟩, -⟩
      rw [hpending] at hq
      cases hq
    · rw [hpending] at hq
      cases hq
  | some q =>
    obtain ⟨s, rfl, hq⟩ := Option.bind_eq_some_iff.1 hpending
    simp only [Option.some.injEq, forall_eq']
    have hmanual : s.pendingMode ≠ some .cleared := by
      intro hmode
      have := s.pending_allowed
      simp [PendingAllowed, hmode, hq] at this
    cases hcase with
    | pendingClear h => exact absurd h hmanual
    | proposed c h hc =>
      rw [hpending, Option.bind_some] at hc
      have hadopts : ¬AdoptsAfterStale w s := by
        rintro ⟨-, -, ⟨q', hq', hnone⟩, -⟩
        rw [hq] at hq'
        cases hq'
        rw [hc] at hnone
        cases hnone
      simp [Stable, FoundAlone, hadopts, hq, hc]
    | stale q' h hq' hc =>
      rw [hpending] at hq'
      cases hq'
      cases hp : s.relativePath with
      | none =>
        simp [Stable, FoundAlone, AdoptsAfterStale, hp, hq, hc]
      | some p =>
        cases hsel : candidate (w.candidates (some s)) p with
        | none =>
          have hnone : candidate (w.candidatesAt (some p)) p = none := by
            rw [← hp]
            by_contra hne
            obtain ⟨c, hfound⟩ := Option.ne_none_iff_exists'.1 hne
            rw [candidate_candidates hfound] at hsel
            cases hsel
          simp [Stable, FoundAlone, AdoptsAfterStale, hp, hq, hc, hsel, hnone]
        | some c =>
          have hpath := candidate_path hsel
          simp [Stable, FoundAlone, AdoptsAfterStale, hp, hq, hc, hsel, hpath]
    | cleared hq' h => rw [hpending] at hq'; cases hq'
    | selected c state hq' h hc => rw [hpending] at hq'; cases hq'
    | adopted c hq' h hp hc => rw [hpending] at hq'; cases hq'
    | left state hq' h hc ha => rw [hpending] at hq'; cases hq'

end Next

/-! ## The boundary -/

/-- The path and the identity of a candidate. -/
def Candidate.repository (c : Candidate) : String × String := (c.relativePath, c.identity)

/-- The repository of a selection; one that is missing has no identity. -/
def DesiredSelection.repository (d : DesiredSelection) : Option (String × String) :=
  match d.relativePath, d.repositoryIdentity with
  | some p, some i => some (p, i)
  | _, _ => none

section Boundary

variable {w : Workspace} {db : Db}

theorem requiresBoundaryChange_eq_false {i : Inspection} :
    i.requiresBoundaryChange = false ↔
      boundaryKey i.stored = i.desired.boundaryKey ∧ i.pendingAction = none := by
  simp [Inspection.requiresBoundaryChange, Inspection.hasPending]

theorem boundaryKey_inj {d e : DesiredSelection} : d.boundaryKey = e.boundaryKey ↔ d = e := by
  obtain ⟨path, identity, mode⟩ := d
  obtain ⟨path', identity', mode'⟩ := e
  simp [DesiredSelection.boundaryKey]

theorem pendingPath_of_pendingMode {stored : Option StoredSelection}
    (h : stored.bind (·.pendingMode) = none) : stored.bind (·.pendingRelativePath) = none := by
  cases stored with
  | none => rfl
  | some s =>
    have hallowed := s.pending_allowed
    simp only [Option.bind_some] at h ⊢
    simpa [PendingAllowed, h] using hallowed

/-- Where nothing is to be changed, the active repository is the desired one, and the one of the
row. -/
theorem active_of_unchanged {stored : Option StoredSelection}
    (h : (w.inspect stored).requiresBoundaryChange = false) :
    (w.inspect stored).active.map Candidate.repository = (w.inspect stored).desired.repository ∧
      ∀ c, (w.inspect stored).active = some c →
        stored.bind (·.relativePath) = some c.relativePath := by
  obtain ⟨hkey, hmode⟩ := requiresBoundaryChange_eq_false.1 h
  change boundaryKey stored = _ at hkey
  change stored.bind (·.pendingMode) = none at hmode
  have hpath := pendingPath_of_pendingMode hmode
  obtain ⟨active, d, state, hcase, ha, hd, -⟩ := inspect_resolved w stored
  rw [hd] at hkey
  rw [ha, hd]
  cases hcase with
  | pendingClear h =>
    rw [hmode] at h
    cases h
  | proposed c h hc =>
    rw [hpath] at hc
    cases hc
  | stale q h hq hc =>
    rw [hpath] at hq
    cases hq
  | cleared hq h => exact ⟨rfl, fun c hc => by cases hc⟩
  | selected c state hq h hc =>
    obtain ⟨p, hp, hc⟩ := Option.bind_eq_some_iff.1 hc
    refine ⟨rfl, fun c' hc' => ?_⟩
    cases hc'
    rw [hp, candidate_path hc]
  | adopted c hq h hp hc =>
    cases stored with
    | none => cases hkey
    | some s =>
      have hnone : s.relativePath = some c.relativePath := congrArg Prod.fst hkey
      rw [Option.bind_some, hnone] at hp
      cases hp
  | left state hq h hc ha =>
    refine ⟨?_, fun c hc => by cases hc⟩
    cases stored.bind (·.relativePath) <;> rfl

theorem applyBoundary_unchanged (h : (w.inspect db.selection).requiresBoundaryChange = false) :
    (applyBoundary w).run db = (some (.ok ⟨w.inspect db.selection, false⟩), db) := by
  have hrestart : (w.inspect db.selection).requiresRuntimeRestart = false := by
    obtain ⟨hkey, hmode⟩ := requiresBoundaryChange_eq_false.1 h
    simp [Inspection.requiresRuntimeRestart, Inspection.hasPending, hkey, hmode]
  simp [applyBoundary, inspect, Prog.read, h, hrestart]

/-- The boundary stores what is desired, and nothing is pending then. -/
theorem applyBoundary_changed (h : (w.inspect db.selection).requiresBoundaryChange = true) :
    ∃ db' generation hallowed,
      db'.selection = some ((w.inspect db.selection).desired.row generation hallowed) ∧
      (applyBoundary w).run db = (some (.ok ⟨w.inspect db'.selection,
        (w.inspect db.selection).requiresRuntimeRestart⟩), db') := by
  have hallowed := desired_allowed w db.selection
  obtain ⟨db', hpersist, hrow⟩ : ∃ db', persistSelection (w.inspect db.selection).desired none
      none (w.inspect db.selection).requiresRuntimeRestart .any db = .ok (true, db') ∧
      db'.selection = some ((w.inspect db.selection).desired.row
        (((db.selection.map (·.generation)).map (· + 1)).getD 1) hallowed) := by
    unfold persistSelection
    simp only [Bool.not_true, Bool.false_eq_true, if_false]
    rw [dif_pos ⟨hallowed, Or.inl ⟨rfl, rfl⟩⟩]
    split <;> exact ⟨_, rfl, rfl⟩
  refine ⟨db', _, hallowed, hrow, ?_⟩
  simp [applyBoundary, inspect, Prog.read, Prog.tx, h, hpersist, Except.map]

/-- After the boundary nothing more is to be changed: a second one writes nothing and
invalidates no session, the active repository is the desired one, and a proposal at whose path
there is no repository leaves what was selected. -/
def Settles (w : Workspace) (db : Db) : Prop :=
  ∃ result db', (applyBoundary w).run db = (some (.ok result), db') ∧
    (inspect w).run db' = (some (.ok result.inspection), db') ∧
    result.inspection.requiresBoundaryChange = false ∧
    (applyBoundary w).run db' = (some (.ok ⟨result.inspection, false⟩), db') ∧
    result.inspection.active.map Candidate.repository = result.inspection.desired.repository ∧
    ∀ s q, db.selection = some s → s.pendingRelativePath = some q →
      candidate (w.candidates (some s)) q = none →
      result.inspection.pendingAction = none ∧
        result.inspection.selectedRelativePath = s.relativePath ∧
        ∀ c, result.inspection.active = some c → s.relativePath = some c.relativePath

/-- What a stale proposal leaves desired is what was selected. -/
theorem desired_of_stale {s : StoredSelection} {q : String} (hq : s.pendingRelativePath = some q)
    (hc : candidate (w.candidates (some s)) q = none) :
    (w.inspect (some s)).desired.relativePath = s.relativePath := by
  obtain ⟨active, d, state, hcase, -, hd, -⟩ := inspect_resolved w (some s)
  rw [hd]
  cases hcase with
  | pendingClear h =>
    have := s.pending_allowed
    rw [Option.bind_some] at h
    simp [PendingAllowed, h, hq] at this
  | proposed c h hc' =>
    rw [Option.bind_some, hq, Option.bind_some, hc] at hc'
    cases hc'
  | stale q' h hq' hc' => rfl
  | cleared hq' h => rw [Option.bind_some, hq] at hq'; cases hq'
  | selected c state hq' h hc' => rw [Option.bind_some, hq] at hq'; cases hq'
  | adopted c hq' h hp hc' => rw [Option.bind_some, hq] at hq'; cases hq'
  | left state hq' h hc' ha => rw [Option.bind_some, hq] at hq'; cases hq'

/-- The boundary settles when what it stores is stable. -/
theorem settles_iff_stable (w : Workspace) (db : Db) :
    Settles w db ↔ Stable w (w.inspect db.selection).desired := by
  cases hchange : (w.inspect db.selection).requiresBoundaryChange with
  | false =>
    have hrun := applyBoundary_unchanged hchange
    have hnone := pendingPath_of_pendingMode (requiresBoundaryChange_eq_false.1 hchange).2
    change db.selection.bind (·.pendingRelativePath) = none at hnone
    obtain ⟨active, d, state, hcase, -, hd, -⟩ := inspect_resolved w db.selection
    refine iff_of_true ⟨_, _, hrun, rfl, hchange, hrun, (active_of_unchanged hchange).1, ?_⟩
      (hd ▸ stable_of_notPending hcase hnone)
    intro s q hs hq
    rw [hs, Option.bind_some, hq] at hnone
    cases hnone
  | true =>
    obtain ⟨db', generation, hallowed, hrow, hrun⟩ := applyBoundary_changed hchange
    rw [← desired_row_iff hallowed, ← hrow]
    have hunchanged : (w.inspect db'.selection).requiresBoundaryChange = false ↔
        (w.inspect db'.selection).desired = (w.inspect db.selection).desired := by
      have hkey : boundaryKey db'.selection = (w.inspect db.selection).desired.boundaryKey := by
        rw [hrow]
        rfl
      have hnone : db'.selection.bind (·.pendingMode) = none := by
        rw [hrow]
        rfl
      rw [requiresBoundaryChange_eq_false, ← boundaryKey_inj, ← hkey]
      exact ⟨fun h => h.1.symm, fun h => ⟨h.symm, hnone⟩⟩
    rw [← hunchanged]
    constructor
    · rintro ⟨result, db'', hrun', -, hstay, -⟩
      rw [hrun] at hrun'
      cases hrun'
      exact hstay
    · intro hstay
      refine ⟨_, _, hrun, rfl, hstay, applyBoundary_unchanged hstay,
        (active_of_unchanged hstay).1, ?_⟩
      intro s q hs hq hc
      have hpath : db'.selection.bind (·.relativePath) = s.relativePath := by
        rw [hrow, ← desired_of_stale hq hc, ← hs]
        rfl
      refine ⟨(requiresBoundaryChange_eq_false.1 hstay).2, hpath, fun c hactive => ?_⟩
      rw [← hpath]
      exact (active_of_unchanged hstay).2 c hactive

/-- **The boundary settles** exactly where a pending proposal does not lead it astray: it is not
stale with a repository to take up by itself, and the repository that is taken is found by its
own path. -/
theorem applyBoundary_settles_iff (w : Workspace) (db : Db) :
    Settles w db ↔ ∀ s, db.selection = some s → ¬AdoptsAfterStale w s ∧ FoundAlone w s :=
  (settles_iff_stable w db).trans (stable_desired_iff w db.selection)

/-- A workspace in which one repository is left. -/
def oneLeft : Workspace where
  discovered := [⟨"other", "/workspace/other", "other"⟩]
  truncated := false
  authorize _ := .error (.backend "repository path is unavailable")

/-- An Agent without a repository whose proposal has disappeared. -/
def staleProposal : StoredSelection where
  relativePath := none
  repositoryIdentity := none
  mode := .automatic
  pendingRelativePath := some "clone"
  pendingMode := some .manual
  generation := 1
  allowed := by decide
  pending_allowed := by decide

/-- The other repository is taken up behind a proposal that has disappeared. -/
theorem staleProposal_not_settles : ¬Settles oneLeft { selection := some staleProposal } := by
  intro h
  have hcondition := (stable_desired_iff _ _).1 ((settles_iff_stable _ _).1 h) _ rfl
  refine hcondition.1 ⟨rfl, rfl, ⟨"clone", rfl, ?_⟩, rfl⟩
  rw [Workspace.candidates, candidate_sortByPath]
  decide

end Boundary

end XpressClaw.Repositories
