import XpressClaw.Server.Auth

/-!
# A password change ends the sessions of the old credential

`replace_password_hash` clears the sessions first and stores the credential second, and a
login creates its session after it has verified what it read.  A session that is created
after the sessions were cleared, by a login that read the credential before it was replaced,
is cleared by nobody.

* `InstanceAuth.Current` — the invariant: every session was issued on the credential in
  place, and there is none while a change is between its two sections.
* `replaced_credential_ends_sessions` — in every run whose logins create their sessions in
  time, `authenticate` accepts sessions of the credential in place only.
-/

namespace XpressClaw.Server

open Lib

namespace InstanceAuth

variable {κ : Type} {auth auth' : InstanceAuth κ}

/-- `load`: the password that was saved, or a startup token. -/
def load (effectiveEnabled : Bool) (passwordHash : Option String) (token : String) :
    InstanceAuth κ where
  effectiveEnabled := effectiveEnabled
  credential :=
    if !effectiveEnabled then .disabled
    else
      match passwordHash with
      | some hash => .password hash
      | none => .startupToken token

/-- Some change has cleared the sessions and not stored its credential yet. -/
def changing (auth : InstanceAuth κ) : Bool := auth.changes.any (·.stage = .revoked)

/-- The credential on which the `i`th login is about to create its session. -/
def issuing (auth : InstanceAuth κ) (i : ℕ) : Option ℕ :=
  match auth.logins[i]? with
  | some login =>
      match login.stage with
      | .verified epoch => some epoch
      | _ => none
  | none => none

/-- **The invariant.** -/
structure Current (auth : InstanceAuth κ) : Prop where
  settled : auth.changing = false → ∀ s ∈ auth.sessions, s.verified = auth.epoch
  cleared : auth.changing = true → auth.sessions = []

theorem Current.of_nil (h : auth.sessions = []) : auth.Current where
  settled _ s hs := by
    rw [h] at hs
    cases hs
  cleared _ := h

/-! ## Sections that issue no session -/

/-- No session is added and no credential is touched. -/
structure Quiet (auth auth' : InstanceAuth κ) : Prop where
  sessions : auth'.sessions ⊆ auth.sessions
  epoch : auth'.epoch = auth.epoch
  changes : auth'.changes = auth.changes

theorem Quiet.current (h : Quiet auth auth') (hc : auth.Current) : auth'.Current := by
  have hchanging : auth'.changing = auth.changing := by rw [changing, h.changes, changing]
  constructor
  · intro hidle s hs
    rw [h.epoch]
    exact hc.settled (hchanging ▸ hidle) s (h.sessions hs)
  · intro hbusy
    rw [hchanging] at hbusy
    exact List.eq_nil_of_subset_nil (hc.cleared hbusy ▸ h.sessions)

theorem Quiet.of_eq (hs : auth'.sessions = auth.sessions) (he : auth'.epoch = auth.epoch)
    (hc : auth'.changes = auth.changes) : Quiet auth auth' :=
  ⟨hs ▸ List.Subset.refl _, he, hc⟩

theorem checkThrottle_eq (auth : InstanceAuth κ) (peer : String) :
    (auth.checkThrottle peer).1 = { auth with loginFailures := auth.recentFailures } := by
  unfold checkThrottle
  dsimp only
  split
  · rfl
  · split <;> rfl

/-! ## Password changes -/

theorem revokeAll_current (auth : InstanceAuth κ) : auth.revokeAll.Current :=
  .of_nil rfl

theorem advanceChange_current (h : auth.Current) (j : ℕ) : (auth.advanceChange j).Current := by
  unfold advanceChange
  cases hj : auth.changes[j]? with
  | none => exact h
  | some change =>
    dsimp only
    cases hstage : change.stage with
    | started => exact .of_nil rfl
    | revoked =>
      have hbusy : auth.changing = true :=
        List.any_eq_true.2 ⟨change, List.mem_of_getElem? hj, by simp [hstage]⟩
      exact .of_nil (h.cleared hbusy)
    | stored => exact h

variable [DecidableEq κ] {crypto : Crypto κ}

/-! ## Logins -/

theorem logout_quiet (cookie : String) : Quiet auth (auth.logout crypto cookie) :=
  ⟨fun _ h => (List.mem_filter.1 h).1, rfl, rfl⟩

theorem authenticate_quiet (cookie : String) : Quiet auth (auth.authenticate crypto cookie).1 := by
  unfold authenticate
  split
  · exact ⟨fun _ h => (List.mem_filter.1 h).1, rfl, rfl⟩
  · exact .of_eq rfl rfl rfl

/-- What a section of a login can do: issue a session, or nothing that matters here. -/
theorem advanceLogin_cases (auth : InstanceAuth κ) (i : ℕ) (joined : Bool)
    (secrets : Option (String × String)) :
    Quiet auth (auth.advanceLogin crypto i joined secrets) ∨
      ∃ epoch token csrf, auth.issuing i = some epoch ∧ secrets = some (token, csrf) ∧
        (auth.advanceLogin crypto i joined secrets).sessions =
          (auth.newSession crypto token csrf epoch).sessions ∧
        (auth.advanceLogin crypto i joined secrets).epoch = auth.epoch ∧
        (auth.advanceLogin crypto i joined secrets).changes = auth.changes := by
  unfold advanceLogin issuing
  cases hl : auth.logins[i]? with
  | none => exact Or.inl (.of_eq rfl rfl rfl)
  | some login =>
    dsimp only
    cases login.stage with
    | queued =>
      left
      dsimp only
      split <;> exact .of_eq rfl rfl rfl
    | entered =>
      left
      have hthrottle := checkThrottle_eq auth login.peer
      dsimp only
      split
      · rename_i checked hr
        rw [hr] at hthrottle
        subst hthrottle
        exact .of_eq rfl rfl rfl
      · rename_i checked error hr
        rw [hr] at hthrottle
        subst hthrottle
        exact .of_eq rfl rfl rfl
    | admitted =>
      left
      dsimp only
      split <;> exact .of_eq rfl rfl rfl
    | verifying verification epoch =>
      left
      dsimp only
      split <;> exact .of_eq rfl rfl rfl
    | verified epoch =>
      cases secrets with
      | none => exact Or.inl (.of_eq rfl rfl rfl)
      | some pair => exact Or.inr ⟨epoch, pair.1, pair.2, rfl, rfl, rfl, rfl, rfl⟩
    | issued token =>
      left
      exact ⟨fun _ h => (List.mem_filter.1 h).1, rfl, rfl⟩
    | _ => exact Or.inl (.of_eq rfl rfl rfl)

/-- Every session after `new_session` is an earlier one or the new one. -/
theorem mem_newSession {token csrf : String} {epoch : ℕ} {s : BrowserSession κ}
    (h : s ∈ (auth.newSession crypto token csrf epoch).sessions) :
    s ∈ auth.sessions ∨ s.verified = epoch := by
  have hlive : ∀ s ∈ auth.liveSessions, s ∈ auth.sessions := fun s hs => (List.mem_filter.1 hs).1
  simp only [newSession, List.mem_append, List.mem_singleton] at h
  rcases h with hold | rfl
  · left
    have hkept := (List.mem_filter.1 hold).1
    split at hkept
    · split at hkept
      · exact hlive s (List.mem_filter.1 hkept).1
      · exact hlive s hkept
    · exact hlive s hkept
  · exact Or.inr rfl

theorem advanceLogin_current (h : auth.Current) {i : ℕ} {joined : Bool}
    {secrets : Option (String × String)}
    (htimely : ∀ epoch ∈ auth.issuing i, secrets.isSome →
      epoch = auth.epoch ∧ auth.changing = false) :
    (auth.advanceLogin crypto i joined secrets).Current := by
  rcases advanceLogin_cases auth i joined secrets with
    hquiet | ⟨epoch, token, csrf, hissuing, rfl, hs, he, hc⟩
  · exact hquiet.current h
  · obtain ⟨rfl, hidle⟩ := htimely epoch hissuing rfl
    have hchanging : (auth.advanceLogin crypto i joined (some (token, csrf))).changing = false := by
      rw [changing, hc]
      exact hidle
    constructor
    · intro _ s hmem
      rw [hs] at hmem
      rw [he]
      rcases mem_newSession hmem with hold | hnew
      · exact h.settled hidle s hold
      · exact hnew
    · intro hbusy
      rw [hchanging] at hbusy
      cases hbusy

end InstanceAuth

/-! ## Runs -/

/-- A login creates its session while the credential it read is still in place, and not
between the two sections of a change. -/
def Op.Timely {κ : Type} (auth : InstanceAuth κ) : Op → Prop
  | .advanceLogin i _ secrets => ∀ epoch ∈ auth.issuing i, secrets.isSome →
      epoch = auth.epoch ∧ auth.changing = false
  | _ => True

instance {κ : Type} (auth : InstanceAuth κ) : ∀ op : Op, Decidable (op.Timely auth)
  | .advanceLogin i _ _ => inferInstanceAs (Decidable (∀ epoch ∈ auth.issuing i, _))
  | .login _ _ _ | .authenticate _ | .logout _ | .revokeAll | .replacePasswordHash _
  | .advanceChange _ | .tick _ => inferInstanceAs (Decidable True)

variable {κ : Type} [DecidableEq κ] {crypto : Crypto κ}

theorem step_current {auth : InstanceAuth κ} {op : Op} (h : auth.Current)
    (hop : op.Timely auth) : (step crypto auth op).Current := by
  cases op with
  | login credential peer desktop =>
    refine InstanceAuth.Quiet.current ?_ h
    unfold step InstanceAuth.login
    dsimp only
    split <;> exact .of_eq rfl rfl rfl
  | advanceLogin i joined secrets => exact InstanceAuth.advanceLogin_current h hop
  | authenticate cookie => exact (InstanceAuth.authenticate_quiet cookie).current h
  | logout cookie => exact (InstanceAuth.logout_quiet cookie).current h
  | revokeAll => exact InstanceAuth.revokeAll_current auth
  | replacePasswordHash passwordHash =>
    have hchanging : (step crypto auth (.replacePasswordHash passwordHash)).changing =
        auth.changing := by
      simp [step, InstanceAuth.changing]
    constructor
    · intro hidle
      exact h.settled (hchanging ▸ hidle)
    · intro hbusy
      exact h.cleared (hchanging ▸ hbusy)
  | advanceChange j => exact InstanceAuth.advanceChange_current h j
  | tick nanos =>
    have hquiet : InstanceAuth.Quiet auth { auth with now := auth.now + nanos } :=
      .of_eq rfl rfl rfl
    exact hquiet.current h

/-- **A password change ends every session of the old credential.**  In every run of an
instance whose logins create their sessions while the credential they read is in place and no
change is between its two sections, what `authenticate` accepts is a session issued on the
credential that was stored last. -/
theorem replaced_credential_ends_sessions (crypto : Crypto κ) (effectiveEnabled : Bool)
    (passwordHash : Option String) (token : String) (ops : List Op)
    (hrun : Along (step crypto) (fun auth op => op.Timely auth)
      (.load effectiveEnabled passwordHash token) ops) (cookie csrf : String)
    (hcookie : ((runOps (step crypto) (.load effectiveEnabled passwordHash token)
      ops).authenticate crypto cookie).2 = some csrf) :
    ∃ s ∈ (runOps (step crypto) (.load effectiveEnabled passwordHash token) ops).sessions,
      s.key = crypto.secretKey cookie ∧ s.csrf = csrf ∧
      s.verified = (runOps (step crypto) (.load effectiveEnabled passwordHash token)
        ops).epoch := by
  have hcurrent := hrun.invariant (I := InstanceAuth.Current) (fun _ _ h hop => step_current h hop)
    (.of_nil rfl)
  generalize runOps (step crypto) (.load effectiveEnabled passwordHash token) ops = auth
    at hcurrent hcookie
  unfold InstanceAuth.authenticate at hcookie
  split at hcookie
  · obtain ⟨s, hs, rfl⟩ := Option.map_eq_some_iff.1 hcookie
    have hmem : s ∈ auth.sessions := (List.mem_filter.1 (Table.mem_of_get hs)).1
    refine ⟨s, hmem, Table.key_of_get hs, rfl, ?_⟩
    cases hbusy : auth.changing with
    | false => exact hcurrent.settled hbusy s hmem
    | true =>
        rw [hcurrent.cleared hbusy] at hmem
        cases hmem
  · cases hcookie

/-- A hash that is the password itself, and a digest that is the secret itself. -/
def plain : Crypto String where
  verifyPassword hash candidate := hash = candidate
  secretKey value := value

/-- A session under the old password, a change, and a session under the new one. -/
def changedPassword : List Op :=
  [.login "old" "peer" false, .advanceLogin 0 true none, .advanceLogin 0 true none,
   .advanceLogin 0 true none, .advanceLogin 0 true none, .advanceLogin 0 true none,
   .advanceLogin 0 true (some ("cookie", "csrf")),
   .replacePasswordHash (some "new"), .advanceChange 0, .advanceChange 0,
   .login "new" "peer" false, .advanceLogin 1 true none, .advanceLogin 1 true none,
   .advanceLogin 1 true none, .advanceLogin 1 true none, .advanceLogin 1 true none,
   .advanceLogin 1 true (some ("other cookie", "other csrf"))]

theorem changedPassword_ends_sessions :
    ∃ s ∈ (runOps (step plain) (.load true (some "old") "") changedPassword).sessions,
      s.key = plain.secretKey "other cookie" ∧ s.csrf = "other csrf" ∧
      s.verified = (runOps (step plain) (.load true (some "old") "") changedPassword).epoch :=
  replaced_credential_ends_sessions plain true (some "old") "" changedPassword (by decide +kernel)
    "other cookie" "other csrf" (by decide +kernel)

/-- A login that verifies the old password while the change is made. -/
def slowLogin : List Op :=
  [.login "old" "peer" false, .advanceLogin 0 true none, .advanceLogin 0 true none,
   .advanceLogin 0 true none, .replacePasswordHash (some "new"), .advanceChange 0,
   .advanceChange 0, .advanceLogin 0 true none, .advanceLogin 0 true none,
   .advanceLogin 0 true (some ("cookie", "csrf"))]

/-- A login that takes place between the two sections of the change. -/
def loginBetween : List Op :=
  [.replacePasswordHash (some "new"), .advanceChange 0, .login "old" "peer" false,
   .advanceLogin 0 true none, .advanceLogin 0 true none, .advanceLogin 0 true none,
   .advanceLogin 0 true none, .advanceLogin 0 true none,
   .advanceLogin 0 true (some ("cookie", "csrf")), .advanceChange 0]

theorem old_sessions_accepted :
    ((runOps (step plain) (.load true (some "old") "") slowLogin).authenticate plain "cookie").2 =
        some "csrf" ∧
      (runOps (step plain) (.load true (some "old") "") slowLogin).sessions.map (·.verified) = [0] ∧
      (runOps (step plain) (.load true (some "old") "") slowLogin).epoch = 1 ∧
      (runOps (step plain) (.load true (some "old") "") slowLogin).changes.map (·.stage) =
        [.stored] ∧
      ((runOps (step plain) (.load true (some "old") "") loginBetween).authenticate plain
        "cookie").2 = some "csrf" ∧
      (runOps (step plain) (.load true (some "old") "") loginBetween).sessions.map (·.verified) =
        [0] ∧
      (runOps (step plain) (.load true (some "old") "") loginBetween).epoch = 1 ∧
      (runOps (step plain) (.load true (some "old") "") loginBetween).changes.map (·.stage) =
        [.stored] := by
  decide +kernel

end XpressClaw.Server
