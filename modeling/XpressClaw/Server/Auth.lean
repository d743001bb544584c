import Mathlib.Algebra.Group.Nat.Defs
import XpressClaw.Lib.Runs
import XpressClaw.Lib.Table

/-!
# Browser authentication

`InstanceAuth`: the credential, the browser sessions and the login throttle, each behind a
mutex of its own.  A login in flight is a record of what it carries and of the section it
enters next; logins wait for the login gate, and the verification of a password takes as long
as other calls like.  A change of the password is a record of the same kind.

Time is counted in nanoseconds.  The generator of secrets, the password hash and the digest
are told (`Crypto`, and the secrets a step is given).  The channels that carry a desktop
credential decide nothing about sessions and are left out.  `epoch` and `verified` are
histories: how many credentials were stored, and the one a session was issued on.
-/

namespace XpressClaw.Server

open Lib

/-! ## Constants -/

def nanosPerSecond : ℕ := 10 ^ 9

def sessionLifetime : ℕ := 12 * 60 * 60 * nanosPerSecond

def loginWindow : ℕ := 60 * nanosPerSecond

def maxLoginFailures : ℕ := 5

def maxTrackedLoginPeers : ℕ := 4096

def maxBrowserSessions : ℕ := 256

/-! ## Data -/

/-- `verify_password` and `secret_key`. -/
structure Crypto (κ : Type) where
  verifyPassword : String → String → Bool
  secretKey : String → κ

inductive Credential where
  | disabled
  | password (hash : String)
  | startupToken (token : String)
  | restartRequired
  deriving DecidableEq

structure BrowserSession (κ : Type) where
  key : κ
  csrf : String
  expiresAt : ℕ
  verified : ℕ
  deriving DecidableEq

structure LoginFailures where
  peer : String
  failures : List ℕ
  deriving DecidableEq

inductive LoginError where
  | invalid
  | internal
  | rateLimited (retryAfterSeconds : ℕ)
  | restartRequired
  | disabled
  deriving DecidableEq

/-- What a login compares the credential with. -/
inductive Verification (κ : Type) where
  | password (hash : String)
  | secret (expected : κ)
  deriving DecidableEq

/-- The section a login enters next. -/
inductive Stage (κ : Type) where
  /-- It waits for the login gate. -/
  | queued
  /-- It holds the gate; the throttle is to be checked. -/
  | entered
  /-- The credential is to be read. -/
  | admitted
  /-- The verification against the `epoch`th credential is running. -/
  | verifying (verification : Verification κ) (epoch : ℕ)
  /-- It matched; the failures of the peer are to be forgotten. -/
  | matched (epoch : ℕ)
  /-- It did not match; the failure is to be recorded. -/
  | unmatched
  /-- The session is to be created. -/
  | verified (epoch : ℕ)
  /-- A desktop credential was valid; its session is to be removed. -/
  | issued (token : String)
  | failed (error : LoginError)
  | succeeded (token csrf : String)
  | validated
  deriving DecidableEq

/-- A call of `login`, or of `validate_desktop_credential`. -/
structure Login (κ : Type) where
  credential : String
  peer : String
  desktop : Bool
  stage : Stage κ := .queued
  deriving DecidableEq

/-- What a password change does next. -/
inductive ChangeStage where
  /-- The sessions are to be cleared. -/
  | started
  /-- The sessions were cleared; the credential is to be stored. -/
  | revoked
  | stored
  deriving DecidableEq

/-- A call of `replace_password_hash`. -/
structure Change where
  passwordHash : Option String
  stage : ChangeStage := .started
  deriving DecidableEq

structure InstanceAuth (κ : Type) where
  effectiveEnabled : Bool
  credential : Credential
  sessions : List (BrowserSession κ) := []
  loginFailures : List LoginFailures := []
  loginGate : Option ℕ := none
  now : ℕ := 0
  logins : List (Login κ) := []
  changes : List Change := []
  epoch : ℕ := 0

namespace InstanceAuth

variable {κ : Type} [DecidableEq κ] (auth : InstanceAuth κ) (crypto : Crypto κ)

/-! ## The throttle -/

/-- The failures of the last minute, and the peers that have some. -/
def recentFailures : List LoginFailures :=
  (auth.loginFailures.map fun f =>
    { f with failures := f.failures.filter fun at_ => auth.now - at_ < loginWindow }).filter
      fun f => !f.failures.isEmpty

/-- `check_throttle`. -/
def checkThrottle (peer : String) : InstanceAuth κ × Option LoginError :=
  let recent := auth.recentFailures
  let checked := { auth with loginFailures := recent }
  match Table.get (·.peer) recent peer with
  | none => (checked, none)
  | some state =>
      if state.failures.length < maxLoginFailures then (checked, none)
      else
        let elapsed := auth.now - state.failures.headD 0
        (checked, some (.rateLimited (max ((loginWindow - elapsed) / nanosPerSecond) 1)))

/-- `record_failure`: the peer that failed last the longest ago makes room. -/
def recordFailure (peer : String) : InstanceAuth κ :=
  let recent := auth.recentFailures
  let known := (Table.get (·.peer) recent peer).isSome
  let kept :=
    if !known && maxTrackedLoginPeers ≤ recent.length then
      match Table.least (fun f => (f.failures.getLastD 0 : ℤ)) recent with
      | some oldest => recent.filter (·.peer ≠ oldest.peer)
      | none => recent
    else recent
  { auth with
    loginFailures :=
      if known then Table.modify (·.peer) peer
        (fun f => { f with failures := f.failures ++ [auth.now] }) kept
      else kept ++ [⟨peer, [auth.now]⟩] }

/-! ## Sessions -/

/-- The sessions that have not expired. -/
def liveSessions : List (BrowserSession κ) := auth.sessions.filter fun s => auth.now < s.expiresAt

/-- `new_session`, after the secrets were generated. -/
def newSession (token csrf : String) (epoch : ℕ) : InstanceAuth κ :=
  let live := auth.liveSessions
  let kept :=
    if maxBrowserSessions ≤ live.length then
      match Table.least (fun s => (s.expiresAt : ℤ)) live with
      | some oldest => live.filter (·.key ≠ oldest.key)
      | none => live
    else live
  let key := crypto.secretKey token
  { auth with
    sessions := kept.filter (·.key ≠ key) ++ [⟨key, csrf, auth.now + sessionLifetime, epoch⟩] }

/-- `authenticate`. -/
def authenticate (cookie : String) : InstanceAuth κ × Option String :=
  if auth.effectiveEnabled then
    ({ auth with sessions := auth.liveSessions },
      (Table.get (·.key) auth.liveSessions (crypto.secretKey cookie)).map (·.csrf))
  else (auth, none)

/-- `logout`. -/
def logout (cookie : String) : InstanceAuth κ :=
  { auth with sessions := auth.sessions.filter (·.key ≠ crypto.secretKey cookie) }

/-- `revoke_all`. -/
def revokeAll : InstanceAuth κ := { auth with sessions := [] }

/-! ## Logins -/

/-- The `i`th login goes on to another section. -/
def goto (i : ℕ) (login : Login κ) (stage : Stage κ) : InstanceAuth κ :=
  { auth with logins := auth.logins.set i { login with stage := stage } }

/-- The `i`th login leaves the gate. -/
def leave (i : ℕ) (login : Login κ) (stage : Stage κ) : InstanceAuth κ :=
  { auth.goto i login stage with loginGate := none }

/-- Whether the credential of a login matches what it read. -/
def verifies (verification : Verification κ) (credential : String) : Bool :=
  match verification with
  | .password hash => crypto.verifyPassword hash credential
  | .secret expected => expected = crypto.secretKey credential

/-- The next section of the `i`th login.  `joined` says that the task that verifies a password
came back, and `secrets` are the session token and the CSRF token that were generated. -/
def advanceLogin (i : ℕ) (joined : Bool) (secrets : Option (String × String)) : InstanceAuth κ :=
  match auth.logins[i]? with
  | none => auth
  | some login =>
      match login.stage with
      | .queued =>
          if auth.loginGate.isNone then { auth.goto i login .entered with loginGate := some i }
          else auth
      | .entered =>
          match auth.checkThrottle login.peer with
          | (checked, none) => checked.goto i login .admitted
          | (checked, some error) => checked.leave i login (.failed error)
      | .admitted =>
          match auth.credential with
          | .password hash => auth.goto i login (.verifying (.password hash) auth.epoch)
          | .startupToken expected =>
              auth.goto i login (.verifying (.secret (crypto.secretKey expected)) auth.epoch)
          | .restartRequired => auth.leave i login (.failed .restartRequired)
          | .disabled => auth.leave i login (.failed .disabled)
      | .verifying verification epoch =>
          if joined && verifies crypto verification login.credential then
            auth.goto i login (.matched epoch)
          else auth.goto i login .unmatched
      | .matched epoch =>
          { auth.goto i login (.verified epoch) with
            loginFailures := auth.loginFailures.filter (·.peer ≠ login.peer) }
      | .unmatched => (auth.recordFailure login.peer).leave i login (.failed .invalid)
      | .verified epoch =>
          match secrets with
          | none => auth.leave i login (.failed .internal)
          | some (token, csrf) =>
              (auth.newSession crypto token csrf epoch).leave i login
                (if login.desktop then .issued token else .succeeded token csrf)
      | .issued token => (auth.logout crypto token).goto i login .validated
      | _ => auth

/-- `login`, up to the gate. -/
def login (credential peer : String) (desktop : Bool) : InstanceAuth κ :=
  if auth.effectiveEnabled then
    { auth with logins := auth.logins ++ [{ credential, peer, desktop }] }
  else auth

/-! ## Password changes -/

/-- The credential that `replace_password_hash` stores. -/
def nextCredential (passwordHash : Option String) : Credential :=
  if !auth.effectiveEnabled then .disabled
  else
    match passwordHash with
    | some hash => .password hash
    | none => .restartRequired

/-- The next section of the `j`th call of `replace_password_hash`. -/
def advanceChange (j : ℕ) : InstanceAuth κ :=
  match auth.changes[j]? with
  | none => auth
  | some change =>
      match change.stage with
      | .started =>
          { auth.revokeAll with changes := auth.changes.set j { change with stage := .revoked } }
      | .revoked =>
          { auth with
            credential := auth.nextCredential change.passwordHash
            epoch := auth.epoch + 1
            changes := auth.changes.set j { change with stage := .stored } }
      | .stored => auth

end InstanceAuth

/-! ## Runs -/

/-- One section of a call. -/
inductive Op where
  | login (credential peer : String) (desktop : Bool)
  | advanceLogin (i : ℕ) (joined : Bool) (secrets : Option (String × String))
  | authenticate (cookie : String)
  | logout (cookie : String)
  | revokeAll
  | replacePasswordHash (passwordHash : Option String)
  | advanceChange (j : ℕ)
  | tick (nanos : ℕ)
  deriving DecidableEq

def step {κ : Type} [DecidableEq κ] (crypto : Crypto κ) (auth : InstanceAuth κ) :
    Op → InstanceAuth κ
  | .login credential peer desktop => auth.login credential peer desktop
  | .advanceLogin i joined secrets => auth.advanceLogin crypto i joined secrets
  | .authenticate cookie => (auth.authenticate crypto cookie).1
  | .logout cookie => auth.logout crypto cookie
  | .revokeAll => auth.revokeAll
  | .replacePasswordHash passwordHash =>
      { auth with changes := auth.changes ++ [{ passwordHash }] }
  | .advanceChange j => auth.advanceChange j
  | .tick nanos => { auth with now := auth.now + nanos }

end XpressClaw.Server
