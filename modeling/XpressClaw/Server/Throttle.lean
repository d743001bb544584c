import Mathlib.Data.List.Basic
import Mathlib.Order.Nat
import XpressClaw.Server.Revocation

/-!
# The login throttle

What the sections of a login do to the throttle, the gate and the two tables, and what a table
with one row a peer says about a peer.

* `Event` — a verification that failed, one that succeeded, or a session that was created.
* `Section`, `step_cases` — everything a step can do to the gate, the failures and the history.
* `Serial` — whoever is past the gate holds it.
* `checkThrottle_none_iff`, `recordFailure_cases` — the check and the record, as statements
  about `rowOf`.
* `step_bounded` — the tables of failing peers and of sessions stay within their bounds.
-/

namespace XpressClaw.Server

open Lib

/-! ## Events -/

/-- What a section of a login adds to the history. -/
inductive Event where
  /-- A failure was recorded. -/
  | failed (peer : String) (at_ : ℕ)
  /-- The credential was accepted, and the failures were forgotten. -/
  | accepted (peer : String) (at_ : ℕ)
  /-- The session was created: the login succeeds. -/
  | succeeded (peer : String) (at_ : ℕ)
  deriving DecidableEq

def Event.time : Event → ℕ
  | .failed _ at_ | .accepted _ at_ | .succeeded _ at_ => at_

namespace InstanceAuth

/-- What the next section of the `i`th login adds to the history. -/
def loginEvent {κ : Type} (auth : InstanceAuth κ) (i : ℕ) (secrets : Option (String × String)) :
    Option Event :=
  match auth.logins[i]? with
  | none => none
  | some login =>
      match login.stage with
      | .unmatched => some (.failed login.peer auth.now)
      | .matched _ => some (.accepted login.peer auth.now)
      | .verified _ => if secrets.isSome then some (.succeeded login.peer auth.now) else none
      | _ => none

/-- What an operation adds to the history. -/
def event {κ : Type} (auth : InstanceAuth κ) : Op → Option Event
  | .advanceLogin i _ secrets => auth.loginEvent i secrets
  | _ => none

end InstanceAuth

/-! ## Sections of a login -/

/-- The login is between the gate and its end. -/
def Stage.holding {κ : Type} : Stage κ → Bool
  | .entered | .admitted | .verifying _ _ | .matched _ | .unmatched | .verified _ => true
  | _ => false

/-- The throttle let the login pass, and no failure of it is recorded yet. -/
def Stage.checked {κ : Type} : Stage κ → Bool
  | .admitted | .verifying _ _ | .unmatched => true
  | _ => false

namespace InstanceAuth

variable {κ : Type} [DecidableEq κ] {crypto : Crypto κ} {auth : InstanceAuth κ} {i : ℕ}
  {l : Login κ}

/-- What a section of the `i`th login does: the stage it goes to, the gate, the failures and the
event. -/
inductive Section (auth : InstanceAuth κ) (i : ℕ) (l : Login κ) :
    Stage κ → Option ℕ → List LoginFailures → Option Event → Prop
  | enter : l.stage = .queued → auth.loginGate = none →
      Section auth i l .entered (some i) auth.loginFailures none
  | pass : l.stage = .entered → (auth.checkThrottle l.peer).2 = none →
      Section auth i l .admitted auth.loginGate auth.recentFailures none
  | reject (error : LoginError) : l.stage = .entered →
      (auth.checkThrottle l.peer).2 = some error →
      Section auth i l (.failed error) none auth.recentFailures none
  | read (v : Verification κ) (epoch : ℕ) : l.stage = .admitted →
      Section auth i l (.verifying v epoch) auth.loginGate auth.loginFailures none
  | refuse (error : LoginError) : l.stage = .admitted →
      error = .restartRequired ∨ error = .disabled →
      Section auth i l (.failed error) none auth.loginFailures none
  | accept (v : Verification κ) (epoch : ℕ) : l.stage = .verifying v epoch →
      Section auth i l (.matched epoch) auth.loginGate auth.loginFailures none
  | deny (v : Verification κ) (epoch : ℕ) : l.stage = .verifying v epoch →
      Section auth i l .unmatched auth.loginGate auth.loginFailures none
  | forget (epoch : ℕ) : l.stage = .matched epoch →
      Section auth i l (.verified epoch) auth.loginGate
        (auth.loginFailures.filter (·.peer ≠ l.peer)) (some (.accepted l.peer auth.now))
  | record : l.stage = .unmatched →
      Section auth i l (.failed .invalid) none (auth.recordFailure l.peer).loginFailures
        (some (.failed l.peer auth.now))
  | fail (epoch : ℕ) : l.stage = .verified epoch →
      Section auth i l (.failed .internal) none auth.loginFailures none
  | issue (epoch : ℕ) (token csrf : String) : l.stage = .verified epoch →
      Section auth i l (if l.desktop then .issued token else .succeeded token csrf) none
        auth.loginFailures (some (.succeeded l.peer auth.now))
  | validate (token : String) : l.stage = .issued token →
      Section auth i l .validated auth.loginGate auth.loginFailures none

/-- A step of the `i`th login is one of its sections, or changes nothing. -/
theorem advanceLogin_section (crypto : Crypto κ) (auth : InstanceAuth κ) (i : ℕ) (joined : Bool)
    (secrets : Option (String × String)) :
    (auth.advanceLogin crypto i joined secrets = auth ∧
      auth.loginEvent i secrets = none) ∨
    ∃ l stage gate failures event, auth.logins[i]? = some l ∧
      Section auth i l stage gate failures event ∧
      (auth.advanceLogin crypto i joined secrets).logins =
        auth.logins.set i { l with stage := stage } ∧
      (auth.advanceLogin crypto i joined secrets).loginGate = gate ∧
      (auth.advanceLogin crypto i joined secrets).loginFailures = failures ∧
      (auth.advanceLogin crypto i joined secrets).now = auth.now ∧
      auth.loginEvent i secrets = event := by
  unfold advanceLogin loginEvent
  cases hl : auth.logins[i]? with
  | none => exact .inl ⟨rfl, rfl⟩
  | some l =>
    dsimp only
    cases hstage : l.stage with
    | queued =>
      dsimp only
      split
      · rename_i hgate
        exact .inr ⟨l, _, _, _, _, rfl, .enter hstage (Option.isNone_iff_eq_none.1 hgate),
          rfl, rfl, rfl, rfl, rfl⟩
      · exact .inl ⟨rfl, rfl⟩
    | entered =>
      have hthrottle := checkThrottle_eq auth l.peer
      dsimp only
      split
      · rename_i checked hr
        have hsnd : (auth.checkThrottle l.peer).2 = none := by rw [hr]
        rw [hr] at hthrottle
        subst hthrottle
        exact .inr ⟨l, _, _, _, _, rfl, .pass hstage hsnd, rfl, rfl, rfl, rfl, rfl⟩
      · rename_i checked error hr
        have hsnd : (auth.checkThrottle l.peer).2 = some error := by rw [hr]
        rw [hr] at hthrottle
        subst hthrottle
        exact .inr ⟨l, _, _, _, _, rfl, .reject error hstage hsnd, rfl, rfl, rfl, rfl, rfl⟩
    | admitted =>
      dsimp only
      split
      · exact .inr ⟨l, _, _, _, _, rfl, .read _ _ hstage, rfl, rfl, rfl, rfl, rfl⟩
      · exact .inr ⟨l, _, _, _, _, rfl, .read _ _ hstage, rfl, rfl, rfl, rfl, rfl⟩
      · exact .inr ⟨l, _, _, _, _, rfl, .refuse _ hstage (.inl rfl), rfl, rfl, rfl, rfl, rfl⟩
      · exact .inr ⟨l, _, _, _, _, rfl, .refuse _ hstage (.inr rfl), rfl, rfl, rfl, rfl, rfl⟩
    | verifying v epoch =>
      dsimp only
      split
      · exact .inr ⟨l, _, _, _, _, rfl, .accept v epoch hstage, rfl, rfl, rfl, rfl, rfl⟩
      · exact .inr ⟨l, _, _, _, _, rfl, .deny v epoch hstage, rfl, rfl, rfl, rfl, rfl⟩
    | matched epoch =>
      exact .inr ⟨l, _, _, _, _, rfl, .forget epoch hstage, rfl, rfl, rfl, rfl, rfl⟩
    | unmatched => exact .inr ⟨l, _, _, _, _, rfl, .record hstage, rfl, rfl, rfl, rfl, rfl⟩
    | verified epoch =>
      cases secrets with
      | none => exact .inr ⟨l, _, _, _, _, rfl, .fail epoch hstage, rfl, rfl, rfl, rfl, rfl⟩
      | some pair =>
        exact .inr ⟨l, _, _, _, _, rfl, .issue epoch pair.1 pair.2 hstage,
          rfl, rfl, rfl, rfl, rfl⟩
    | issued token =>
      exact .inr ⟨l, _, _, _, _, rfl, .validate token hstage, rfl, rfl, rfl, rfl, rfl⟩
    | failed error => exact .inl ⟨rfl, rfl⟩
    | succeeded token csrf => exact .inl ⟨rfl, rfl⟩
    | validated => exact .inl ⟨rfl, rfl⟩

/-- A step that is no section of a login: time may pass, and logins may queue up. -/
structure Idle (auth auth' : InstanceAuth κ) : Prop where
  failures : auth'.loginFailures = auth.loginFailures
  gate : auth'.loginGate = auth.loginGate
  logins : ∀ (i : ℕ) (l : Login κ), auth'.logins[i]? = some l →
    auth.logins[i]? = some l ∨ l.stage = .queued
  now : auth.now ≤ auth'.now

omit [DecidableEq κ] in
theorem Idle.of_eq {auth' : InstanceAuth κ} (hf : auth'.loginFailures = auth.loginFailures)
    (hg : auth'.loginGate = auth.loginGate) (hl : auth'.logins = auth.logins)
    (hn : auth.now ≤ auth'.now) : Idle auth auth' :=
  ⟨hf, hg, fun _ _ h => .inl (hl ▸ h), hn⟩

/-- **What a step does to the throttle.** -/
theorem step_cases (crypto : Crypto κ) (auth : InstanceAuth κ) (op : Op) :
    (Idle auth (step crypto auth op) ∧ auth.event op = none) ∨
    ∃ i l stage gate failures event, auth.logins[i]? = some l ∧
      Section auth i l stage gate failures event ∧
      (step crypto auth op).logins = auth.logins.set i { l with stage := stage } ∧
      (step crypto auth op).loginGate = gate ∧
      (step crypto auth op).loginFailures = failures ∧
      (step crypto auth op).now = auth.now ∧ auth.event op = event := by
  cases op with
  | login credential peer desktop =>
    refine .inl ⟨?_, rfl⟩
    unfold step login
    dsimp only
    split
    · refine ⟨rfl, rfl, fun i l hl => ?_, le_rfl⟩
      rw [List.getElem?_append] at hl
      split at hl
      · exact .inl hl
      · obtain ⟨-, rfl⟩ := List.getElem?_eq_some_iff.1 hl
        exact .inr (by simp)
    · exact .of_eq rfl rfl rfl le_rfl
  | advanceLogin i joined secrets =>
    rcases advanceLogin_section crypto auth i joined secrets with
      ⟨hsame, hevent⟩ | ⟨l, stage, gate, failures, event, h⟩
    · refine .inl ⟨?_, hevent⟩
      show Idle auth (auth.advanceLogin crypto i joined secrets)
      rw [hsame]
      exact .of_eq rfl rfl rfl le_rfl
    · exact .inr ⟨i, l, stage, gate, failures, event, h⟩
  | authenticate cookie =>
    refine .inl ⟨?_, rfl⟩
    unfold step authenticate
    dsimp only
    split <;> exact .of_eq rfl rfl rfl le_rfl
  | logout cookie => exact .inl ⟨.of_eq rfl rfl rfl le_rfl, rfl⟩
  | revokeAll => exact .inl ⟨.of_eq rfl rfl rfl le_rfl, rfl⟩
  | replacePasswordHash passwordHash => exact .inl ⟨.of_eq rfl rfl rfl le_rfl, rfl⟩
  | advanceChange j =>
    refine .inl ⟨?_, rfl⟩
    unfold step advanceChange
    dsimp only
    cases auth.changes[j]? with
    | none => exact .of_eq rfl rfl rfl le_rfl
    | some change =>
      dsimp only
      cases change.stage <;> exact .of_eq rfl rfl rfl le_rfl
  | tick nanos => exact .inl ⟨.of_eq rfl rfl rfl (Nat.le_add_right _ _), rfl⟩

/-! ## The gate -/

/-- Whoever is past the gate holds it. -/
def Serial (auth : InstanceAuth κ) : Prop :=
  ∀ (i : ℕ) (l : Login κ), auth.logins[i]? = some l → l.stage.holding = true →
  auth.loginGate = some i

omit [DecidableEq κ] in
theorem Serial.unique (h : auth.Serial) (hl : auth.logins[i]? = some l)
    (hstage : l.stage.holding = true) {j : ℕ} {l' : Login κ} (hl' : auth.logins[j]? = some l')
    (hstage' : l'.stage.holding = true) : j = i :=
  Option.some.inj ((h j l' hl' hstage').symm.trans (h i l hl hstage))

omit [DecidableEq κ] in
/-- A section enters the gate, stays behind it or in it, or leaves it. -/
theorem Section.gate_cases {stage : Stage κ} {gate : Option ℕ} {failures : List LoginFailures}
    {event : Option Event} (h : Section auth i l stage gate failures event) :
    (auth.loginGate = none ∧ gate = some i) ∨
    (gate = auth.loginGate ∧ (stage.holding = true → l.stage.holding = true)) ∨
    (gate = none ∧ stage.holding = false ∧ l.stage.holding = true) := by
  cases h with
  | enter hstage hgate => exact .inl ⟨hgate, rfl⟩
  | pass hstage => exact .inr (.inl ⟨rfl, fun _ => by rw [hstage]; rfl⟩)
  | reject error hstage => exact .inr (.inr ⟨rfl, rfl, by rw [hstage]; rfl⟩)
  | read v epoch hstage => exact .inr (.inl ⟨rfl, fun _ => by rw [hstage]; rfl⟩)
  | refuse error hstage => exact .inr (.inr ⟨rfl, rfl, by rw [hstage]; rfl⟩)
  | accept v epoch hstage => exact .inr (.inl ⟨rfl, fun _ => by rw [hstage]; rfl⟩)
  | deny v epoch hstage => exact .inr (.inl ⟨rfl, fun _ => by rw [hstage]; rfl⟩)
  | forget epoch hstage => exact .inr (.inl ⟨rfl, fun _ => by rw [hstage]; rfl⟩)
  | record hstage => exact .inr (.inr ⟨rfl, rfl, by rw [hstage]; rfl⟩)
  | fail epoch hstage => exact .inr (.inr ⟨rfl, rfl, by rw [hstage]; rfl⟩)
  | issue epoch token csrf hstage =>
    exact .inr (.inr ⟨rfl, by cases l.desktop <;> rfl, by rw [hstage]; rfl⟩)
  | validate token hstage => exact .inr (.inl ⟨rfl, fun h => by cases h⟩)

theorem step_serial (h : auth.Serial) (op : Op) : (step crypto auth op).Serial := by
  rcases step_cases crypto auth op with
    ⟨hidle, -⟩ | ⟨i, l, stage, gate, failures, event, hl, hsec, hlogins, hgate, -⟩
  · intro j l hl hstage
    rw [hidle.gate]
    rcases hidle.logins j l hl with hold | hqueued
    · exact h j l hold hstage
    · rw [hqueued] at hstage
      cases hstage
  · intro j l' hl' hstage
    rw [hlogins, List.getElem?_set] at hl'
    rw [hgate]
    by_cases hij : i = j
    · subst hij
      rw [if_pos rfl, if_pos (List.getElem?_eq_some_iff.1 hl).1] at hl'
      obtain rfl := Option.some.inj hl'
      rcases hsec.gate_cases with ⟨-, rfl⟩ | ⟨rfl, hback⟩ | ⟨-, hnot, -⟩
      · rfl
      · exact h i l hl (hback hstage)
      · exact absurd hstage (by simp [hnot])
    · rw [if_neg hij] at hl'
      have hother := h j l' hl' hstage
      rcases hsec.gate_cases with ⟨hnone, rfl⟩ | ⟨rfl, -⟩ | ⟨-, -, hholds⟩
      · rw [hnone] at hother
        cases hother
      · exact hother
      · exact absurd (h.unique hl hholds hl' hstage).symm hij

end InstanceAuth

/-! ## The table -/

/-- The times that are less than a window ago. -/
def inWindow (now : ℕ) (times : List ℕ) : List ℕ := times.filter fun at_ => now - at_ < loginWindow

/-- The failures that the table holds for a peer. -/
def rowOf (peer : String) (rows : List LoginFailures) : List ℕ :=
  ((Table.get LoginFailures.peer rows peer).map LoginFailures.failures).getD []

section Rows

variable {rows : List LoginFailures} {peer p : String} {f : LoginFailures}

theorem rowOf_cons (f : LoginFailures) (rows : List LoginFailures) :
    rowOf peer (f :: rows) = if f.peer = peer then f.failures else rowOf peer rows := by
  unfold rowOf Table.get
  by_cases h : f.peer = peer <;> simp [h]

theorem rowOf_of_notMem (h : peer ∉ rows.map LoginFailures.peer) : rowOf peer rows = [] := by
  have hnone : Table.get LoginFailures.peer rows peer = none := by
    rw [← Option.not_isSome_iff_eq_none, Table.get_isSome_iff]
    exact h
  rw [rowOf, hnone]
  rfl

theorem rowOf_append_new (h : p ∉ rows.map LoginFailures.peer) (times : List ℕ) :
    rowOf peer (rows ++ [⟨p, times⟩]) = if p = peer then times else rowOf peer rows := by
  induction rows with
  | nil =>
    rw [List.nil_append, rowOf_cons]
  | cons f rows ih =>
    rw [List.map_cons, List.mem_cons, not_or] at h
    rw [List.cons_append, rowOf_cons, rowOf_cons, ih h.2]
    by_cases hf : f.peer = peer
    · rw [if_pos hf, if_pos hf, if_neg fun hp => h.1 (hp.trans hf.symm)]
    · rw [if_neg hf, if_neg hf]

theorem rowOf_modify (h : p ∈ rows.map LoginFailures.peer) (times : List ℕ) :
    rowOf peer (Table.modify LoginFailures.peer p
      (fun f => { f with failures := f.failures ++ times }) rows) =
        if p = peer then rowOf peer rows ++ times else rowOf peer rows := by
  unfold rowOf
  rw [Table.get_modify (by intro r; rfl)]
  by_cases hp : p = peer
  · subst hp
    obtain ⟨f, hf⟩ := Option.isSome_iff_exists.1 (Table.get_isSome_iff.2 h)
    rw [hf]
    simp
  · have hne : peer ≠ p := Ne.symm hp
    cases Table.get LoginFailures.peer rows peer <;> simp [hp, hne]

theorem rowOf_filter (rows : List LoginFailures) : rowOf peer (rows.filter (·.peer ≠ p)) =
    if p = peer then [] else rowOf peer rows := by
  induction rows with
  | nil => simp [rowOf, Table.get]
  | cons f rows ih =>
    rw [List.filter_cons]
    by_cases hf : f.peer = p
    · rw [if_neg (by simp [hf]), ih, rowOf_cons]
      by_cases hp : p = peer
      · rw [if_pos hp, if_pos hp]
      · rw [if_neg hp, if_neg hp, if_neg fun h => hp (hf.symm.trans h)]
    · rw [if_pos (by simp [hf]), rowOf_cons, rowOf_cons, ih]
      by_cases hp : p = peer
      · rw [if_neg fun h => hf (h.trans hp.symm), if_pos hp, if_pos hp]
      · rw [if_neg hp, if_neg hp]

end Rows

namespace InstanceAuth

variable {κ : Type} {crypto : Crypto κ} {auth : InstanceAuth κ} {i : ℕ} {l : Login κ}

theorem mem_recentFailures {f : LoginFailures} : f ∈ auth.recentFailures ↔
    ∃ f₀ ∈ auth.loginFailures, f = { f₀ with failures := inWindow auth.now f₀.failures } ∧
      f.failures ≠ [] := by
  simp only [recentFailures, List.mem_filter, List.mem_map, Bool.not_eq_true',
    List.isEmpty_eq_false_iff]
  constructor
  · rintro ⟨⟨f₀, h₀, rfl⟩, hne⟩
    exact ⟨f₀, h₀, rfl, hne⟩
  · rintro ⟨f₀, h₀, rfl, hne⟩
    exact ⟨⟨f₀, h₀, rfl⟩, hne⟩

theorem map_peer_recentFailures (auth : InstanceAuth κ) :
    (auth.recentFailures.map LoginFailures.peer).Sublist
    (auth.loginFailures.map LoginFailures.peer) := by
  have hsub := (List.filter_sublist (p := fun f : LoginFailures => !f.failures.isEmpty)
    (l := auth.loginFailures.map fun f =>
      { f with failures := inWindow auth.now f.failures })).map LoginFailures.peer
  rw [List.map_map] at hsub
  exact hsub

theorem length_recentFailures_le : auth.recentFailures.length ≤ auth.loginFailures.length := by
  have hlen := (map_peer_recentFailures auth).length_le
  rwa [List.length_map, List.length_map] at hlen

/-- With one row a peer, dropping the old failures drops them from what is looked up. -/
theorem rowOf_recentFailures (h : (auth.loginFailures.map LoginFailures.peer).Nodup)
    (peer : String) :
    rowOf peer auth.recentFailures = inWindow auth.now (rowOf peer auth.loginFailures) := by
  unfold recentFailures
  revert h
  induction auth.loginFailures with
  | nil => exact fun _ => rfl
  | cons f rows ih =>
    intro h
    rw [List.map_cons, List.nodup_cons] at h
    rw [List.map_cons, List.filter_cons, rowOf_cons]
    by_cases hempty : inWindow auth.now f.failures = []
    · have hpos : ¬ (!(f.failures.filter fun at_ =>
        auth.now - at_ < loginWindow).isEmpty) = true := by
        simpa [inWindow] using hempty
      rw [if_neg hpos, ih h.2]
      by_cases hf : f.peer = peer
      · rw [if_pos hf, hempty, rowOf_of_notMem (hf ▸ h.1)]
        rfl
      · rw [if_neg hf]
    · have hpos : (!(f.failures.filter fun at_ =>
        auth.now - at_ < loginWindow).isEmpty) = true := by
        simpa [inWindow] using hempty
      rw [if_pos hpos, rowOf_cons, ih h.2]
      split <;> rfl

/-- The check refuses a peer with as many recent failures as are allowed. -/
theorem checkThrottle_none_iff (peer : String) : (auth.checkThrottle peer).2 = none ↔
    (rowOf peer auth.recentFailures).length < maxLoginFailures := by
  unfold checkThrottle rowOf
  dsimp only
  split
  · rename_i hget
    have hget' : Table.get LoginFailures.peer auth.recentFailures peer = none := hget
    rw [hget']
    simp [maxLoginFailures]
  · rename_i state hget
    have hget' : Table.get LoginFailures.peer auth.recentFailures peer = some state := hget
    rw [hget', Option.map_some, Option.getD_some]
    split
    · rename_i hlt
      exact iff_of_true rfl hlt
    · rename_i hlt
      exact iff_of_false (by simp) hlt

/-- **What recording a failure does**: the peer's row gets the time, or a new row gets it, for
which the table makes room if it has to. -/
theorem recordFailure_cases (hfull : auth.recentFailures.length ≤ maxTrackedLoginPeers)
    (peer : String) :
    (peer ∈ auth.recentFailures.map LoginFailures.peer ∧
      (auth.recordFailure peer).loginFailures = Table.modify LoginFailures.peer peer
        (fun f => { f with failures := f.failures ++ [auth.now] }) auth.recentFailures) ∨
    ∃ kept, kept.Sublist auth.recentFailures ∧ kept.length < maxTrackedLoginPeers ∧
      peer ∉ kept.map LoginFailures.peer ∧
      (auth.recentFailures.length < maxTrackedLoginPeers → kept = auth.recentFailures) ∧
      (auth.recordFailure peer).loginFailures = kept ++ [⟨peer, [auth.now]⟩] := by
  by_cases hknown : peer ∈ auth.recentFailures.map LoginFailures.peer
  · have hsome := Table.get_isSome_iff.2 hknown
    refine .inl ⟨hknown, ?_⟩
    simp [recordFailure, hsome]
  · have hnone : (Table.get LoginFailures.peer auth.recentFailures peer).isSome = false := by
      rw [← Bool.not_eq_true, Table.get_isSome_iff]
      exact hknown
    right
    by_cases hroom : maxTrackedLoginPeers ≤ auth.recentFailures.length
    · cases hleast : Table.least (fun f : LoginFailures => (f.failures.getLastD 0 : ℤ))
        auth.recentFailures with
      | none =>
        rw [Table.least_eq_none hleast] at hroom
        exact absurd hroom (by decide)
      | some oldest =>
        have hsub := List.filter_sublist
          (p := fun f : LoginFailures => decide (f.peer ≠ oldest.peer))
          (l := auth.recentFailures)
        have hlt := Table.length_evict_lt LoginFailures.peer hleast
        refine ⟨_, hsub, hlt.trans_le hfull, fun h => hknown ((hsub.map _).subset h),
          fun h => absurd hroom (not_le.2 h), ?_⟩
        simp only [recordFailure, hnone, hroom, hleast, Bool.not_false,
          Bool.true_and, decide_true,
          if_true, Bool.false_eq_true, if_false]
    · refine ⟨auth.recentFailures, List.Sublist.refl _, not_le.1 hroom, hknown, fun _ => rfl, ?_⟩
      simp [recordFailure, hnone, hroom]

/-! ## The sizes of the tables -/

/-- Both tables keep within their bounds. -/
structure Bounded (auth : InstanceAuth κ) : Prop where
  failures : auth.loginFailures.length ≤ maxTrackedLoginPeers
  sessions : auth.sessions.length ≤ maxBrowserSessions

theorem length_recordFailure_le (h : auth.loginFailures.length ≤ maxTrackedLoginPeers)
    (peer : String) :
    (auth.recordFailure peer).loginFailures.length ≤ maxTrackedLoginPeers := by
  have hrecent := length_recentFailures_le.trans h
  rcases recordFailure_cases hrecent peer with ⟨-, heq⟩ | ⟨kept, -, hlt, -, -, heq⟩
  · rw [heq, Table.modify, List.length_map]
    exact hrecent
  · rw [heq, List.length_append, List.length_singleton]
    exact hlt

section Sessions

variable [DecidableEq κ]

theorem length_newSession_le (h : auth.sessions.length ≤ maxBrowserSessions) (token csrf : String)
    (epoch : ℕ) : (auth.newSession crypto token csrf epoch).sessions.length ≤
    maxBrowserSessions := by
  have hlive : auth.liveSessions.length ≤ maxBrowserSessions := (List.length_filter_le _ _).trans h
  unfold newSession
  dsimp only
  rw [List.length_append, List.length_singleton]
  refine Nat.succ_le_of_lt ((List.length_filter_le _ _).trans_lt ?_)
  split
  · split
    · rename_i oldest hleast
      exact (Table.length_evict_lt BrowserSession.key hleast).trans_le hlive
    · rename_i hroom _ hleast
      rw [Table.least_eq_none hleast, List.length_nil] at hroom
      exact absurd hroom (by decide)
  · rename_i hroom
    exact not_le.1 hroom

theorem length_sessions_advanceLogin (h : auth.sessions.length ≤ maxBrowserSessions) (joined : Bool)
    (secrets : Option (String × String)) :
    (auth.advanceLogin crypto i joined secrets).sessions.length ≤ maxBrowserSessions := by
  unfold advanceLogin
  cases auth.logins[i]? with
  | none => exact h
  | some l =>
    dsimp only
    cases l.stage with
    | queued =>
      dsimp only
      split <;> exact h
    | entered =>
      have hthrottle := checkThrottle_eq auth l.peer
      dsimp only
      split
      · rename_i checked hr
        rw [hr] at hthrottle
        subst hthrottle
        exact h
      · rename_i checked error hr
        rw [hr] at hthrottle
        subst hthrottle
        exact h
    | admitted =>
      dsimp only
      split <;> exact h
    | verifying v epoch =>
      dsimp only
      split <;> exact h
    | verified epoch =>
      cases secrets with
      | none => exact h
      | some pair => exact length_newSession_le h pair.1 pair.2 epoch
    | issued token => exact (List.length_filter_le _ _).trans h
    | matched epoch => exact h
    | unmatched => exact h
    | failed error => exact h
    | succeeded token csrf => exact h
    | validated => exact h

theorem length_sessions_step (h : auth.sessions.length ≤ maxBrowserSessions) (op : Op) :
    (step crypto auth op).sessions.length ≤ maxBrowserSessions := by
  cases op with
  | login credential peer desktop =>
    unfold step login
    dsimp only
    split <;> exact h
  | advanceLogin i joined secrets => exact length_sessions_advanceLogin h joined secrets
  | authenticate cookie =>
    unfold step authenticate
    dsimp only
    split
    · exact (List.length_filter_le _ _).trans h
    · exact h
  | logout cookie => exact (List.length_filter_le _ _).trans h
  | revokeAll => exact Nat.zero_le _
  | replacePasswordHash passwordHash => exact h
  | advanceChange j =>
    unfold step advanceChange
    dsimp only
    cases auth.changes[j]? with
    | none => exact h
    | some change =>
      dsimp only
      cases change.stage with
      | started => exact Nat.zero_le _
      | revoked => exact h
      | stored => exact h
  | tick nanos => exact h

/-- **The tables stay within their bounds.** -/
theorem step_bounded (h : auth.Bounded) (op : Op) : (step crypto auth op).Bounded := by
  refine ⟨?_, length_sessions_step h.sessions op⟩
  have hrecent := length_recentFailures_le.trans h.failures
  rcases step_cases crypto auth op with
    ⟨hidle, -⟩ | ⟨i, l, stage, gate, failures, event, -, hsec, -, -, hfailures, -⟩
  · rw [hidle.failures]
    exact h.failures
  · rw [hfailures]
    cases hsec with
    | pass => exact hrecent
    | reject => exact hrecent
    | forget => exact (List.length_filter_le _ _).trans h.failures
    | record => exact length_recordFailure_le h.failures l.peer
    | enter => exact h.failures
    | read => exact h.failures
    | refuse => exact h.failures
    | accept => exact h.failures
    | deny => exact h.failures
    | fail => exact h.failures
    | issue => exact h.failures
    | validate => exact h.failures

end Sessions

end InstanceAuth

end XpressClaw.Server
