import XpressClaw.Lib.Bytes

/-!
# Desktop transcripts

The byte strings of `desktop_auth.rs` that the server signs for a Desktop client or
authenticates beside a ciphertext: a domain, the instance's id with a zero behind it, and
then fields of fixed length.

* `identityProofMessage`, `credentialProofMessage`, `credentialAad` — the three encodings.
* `Statement.message_injective` — a signed message says one thing: which kind of proof it is,
  and every argument of it.
* `signed_statement` — what the route signs is such a statement.
* `transcripts_unambiguous` — the same for the authenticated data of a channel.
-/

namespace XpressClaw.Server

open Lib

/-! ## The encodings -/

/-- The character that ends an instance's id. -/
def nul : Char := Char.ofNat 0

/-- A domain of the protocol, with its zero. -/
def domain (name : String) : List UInt8 := bytes name.toList ++ [0]

def identityProofDomain : List UInt8 := domain "xpressclaw-desktop-identity-v1"

def credentialChannelProofDomain : List UInt8 := domain "xpressclaw-desktop-credential-channel-v1"

def credentialChannelAadDomain : List UInt8 := domain "xpressclaw-desktop-credential-aad-v1"

inductive DesktopCredentialPurpose where
  | validate
  | browserSession
  deriving DecidableEq, Repr

def DesktopCredentialPurpose.asBytes : DesktopCredentialPurpose → List UInt8
  | .validate => bytes "validate".toList
  | .browserSession => bytes "browser_session".toList

def identityProofMessage (instanceId : String) (challenge : List UInt8) : List UInt8 :=
  identityProofDomain ++ bytes instanceId.toList ++ [0] ++ challenge

def credentialProofMessage (instanceId : String) (challenge : List UInt8)
    (exchangeId clientPublicKey serverPublicKey : Vector UInt8 32) : List UInt8 :=
  credentialChannelProofDomain ++ bytes instanceId.toList ++ [0] ++ challenge ++
    exchangeId.toList ++ clientPublicKey.toList ++ serverPublicKey.toList

def credentialAad (instanceId : String) (exchangeId : Vector UInt8 32) (direction : List UInt8)
    (purpose : DesktopCredentialPurpose) : List UInt8 :=
  credentialChannelAadDomain ++ bytes instanceId.toList ++ [0] ++ exchangeId.toList ++
    direction ++ purpose.asBytes

/-- `CREDENTIAL_REQUEST_DIRECTION` and `CREDENTIAL_RESPONSE_DIRECTION`. -/
inductive Direction where
  | request
  | response
  deriving DecidableEq, Repr

def Direction.asBytes : Direction → List UInt8
  | .request => bytes "request".toList
  | .response => bytes "response".toList

/-! ## What is said -/

/-- An id without the character that ends it. -/
structure InstanceId where
  id : String
  noNul : nul ∉ id.toList

/-- What the identity key signs. -/
inductive Statement where
  | identity (instanceId : InstanceId) (challenge : Vector UInt8 32)
  | credential (instanceId : InstanceId)
      (challenge exchangeId clientPublicKey serverPublicKey : Vector UInt8 32)

def Statement.message : Statement → List UInt8
  | .identity instanceId challenge => identityProofMessage instanceId.id challenge.toList
  | .credential instanceId challenge exchangeId clientPublicKey serverPublicKey =>
      credentialProofMessage instanceId.id challenge.toList exchangeId clientPublicKey
        serverPublicKey

/-- What a ciphertext of a credential channel is for. -/
structure ChannelContext where
  instanceId : InstanceId
  exchangeId : Vector UInt8 32
  direction : Direction
  purpose : DesktopCredentialPurpose

def ChannelContext.aad (c : ChannelContext) : List UInt8 :=
  credentialAad c.instanceId.id c.exchangeId c.direction.asBytes c.purpose

/-! ## The route -/

inductive DesktopCredentialError where
  | invalid
  | internal
  deriving DecidableEq, Repr

/-- `begin_desktop_credential_exchange`, as far as its signature: the server's key and the
exchange id come from the generator. -/
def beginDesktopCredentialExchange (instanceId : String) (challenge clientPublicKey : List UInt8)
    (exchangeId serverPublicKey : Vector UInt8 32) : Except DesktopCredentialError (List UInt8) :=
  if challenge.length ≠ 32 then .error .invalid
  else if h : clientPublicKey.length = 32 then
    .ok (credentialProofMessage instanceId challenge exchangeId
      ⟨clientPublicKey.toArray, h⟩ serverPublicKey)
  else .error .invalid

/-- The answer of `identity_proof` to decoded arguments: the signed message, or the text of a
refusal. -/
def identityProof (instanceId : String) (challenge : List UInt8)
    (clientPublicKey : Option (List UInt8)) (exchangeId serverPublicKey : Vector UInt8 32) :
    Except String (List UInt8) :=
  if challenge.length ≠ 32 then .error "Identity challenge is invalid"
  else
    match clientPublicKey with
    | none => .ok (identityProofMessage instanceId challenge)
    | some key =>
        match beginDesktopCredentialExchange instanceId challenge key exchangeId
            serverPublicKey with
        | .ok message => .ok message
        | .error .invalid => .error "Desktop credential channel is invalid or expired"
        | .error .internal => .error "Could not create a secure Desktop credential channel"

/-! ## Reading the encodings back -/

section Unambiguous

variable {i i' : InstanceId} {d r r' : List UInt8} {v v' : Vector UInt8 32}

theorem zero_notMem_id (i : InstanceId) : (0 : UInt8) ∉ bytes i.id.toList := by
  have hnul : String.utf8EncodeChar nul = [0] := by decide +kernel
  rw [mem_bytes hnul]
  exact i.noNul

theorem InstanceId.bytes_inj : bytes i.id.toList = bytes i'.id.toList ↔ i = i' := by
  constructor
  · intro h
    cases i
    cases i'
    obtain rfl := String.toList_inj.1 (Lib.bytes_inj.1 h)
    rfl
  · rintro rfl
    rfl

theorem id_inj :
    d ++ bytes i.id.toList ++ [0] ++ r = d ++ bytes i'.id.toList ++ [0] ++ r' ↔
    i = i' ∧ r = r' := by
  simp only [List.append_assoc, List.append_cancel_left_eq, List.singleton_append]
  rw [append_sep_inj (zero_notMem_id i) (zero_notMem_id i'), InstanceId.bytes_inj]

theorem field_inj : v.toList ++ r = v'.toList ++ r' ↔ v = v' ∧ r = r' := by
  constructor
  · intro h
    obtain ⟨hv, hr⟩ := List.append_inj h (by rw [Vector.length_toList, Vector.length_toList])
    exact ⟨Vector.toList_inj.1 hv, hr⟩
  · rintro ⟨rfl, rfl⟩
    rfl

theorem direction_purpose_inj {x x' : Direction} {p p' : DesktopCredentialPurpose}
    (h : x.asBytes ++ p.asBytes = x'.asBytes ++ p'.asBytes) : x = x' ∧ p = p' := by
  revert h
  cases x <;> cases x' <;> cases p <;> cases p' <;> decide +kernel

theorem identityProofMessage_inj {challenge challenge' : Vector UInt8 32}
    (h : identityProofMessage i.id challenge.toList =
      identityProofMessage i'.id challenge'.toList) : i = i' ∧ challenge = challenge' := by
  obtain ⟨hi, hc⟩ := id_inj.1 h
  exact ⟨hi, Vector.toList_inj.1 hc⟩

theorem credentialProofMessage_inj {challenge challenge' x x' c c' s s' : Vector UInt8 32}
    (h : credentialProofMessage i.id challenge.toList x c s =
      credentialProofMessage i'.id challenge'.toList x' c' s') :
    i = i' ∧ challenge = challenge' ∧ x = x' ∧ c = c' ∧ s = s' := by
  have hsplit (i : InstanceId) (challenge x c s : Vector UInt8 32) :
      credentialProofMessage i.id challenge.toList x c s =
        credentialChannelProofDomain ++ bytes i.id.toList ++ [0] ++
          (challenge.toList ++ (x.toList ++ (c.toList ++ s.toList))) := by
    simp only [credentialProofMessage, List.append_assoc]
  rw [hsplit, hsplit, id_inj, field_inj, field_inj, field_inj, Vector.toList_inj] at h
  exact h

/-- The domains of the two proofs part at their twentieth byte. -/
theorem identity_ne_credential (challenge : Vector UInt8 32)
    (challenge' x c s : Vector UInt8 32) :
    identityProofMessage i.id challenge.toList ≠
      credentialProofMessage i'.id challenge'.toList x c s := by
  intro h
  have hbyte := congrArg (fun l : List UInt8 => l[19]?) h
  have hleft : (identityProofMessage i.id challenge.toList)[19]? = identityProofDomain[19]? := by
    rw [identityProofMessage, List.append_assoc, List.append_assoc]
    exact List.getElem?_append_left (by decide +kernel)
  have hright : (credentialProofMessage i'.id challenge'.toList x c s)[19]? =
      credentialChannelProofDomain[19]? := by
    simp only [credentialProofMessage, List.append_assoc]
    exact List.getElem?_append_left (by decide +kernel)
  simp only [hleft, hright] at hbyte
  exact absurd hbyte (by decide +kernel)

/-- A signed message says one thing. -/
theorem Statement.message_injective : Function.Injective Statement.message := by
  intro a b h
  cases a with
  | identity i challenge =>
    cases b with
    | identity i' challenge' =>
      obtain ⟨rfl, rfl⟩ := identityProofMessage_inj h
      rfl
    | credential i' challenge' x' c' s' =>
      exact absurd h (identity_ne_credential challenge challenge' x' c' s')
  | credential i challenge x c s =>
    cases b with
    | identity i' challenge' =>
      exact absurd h.symm (identity_ne_credential challenge' challenge x c s)
    | credential i' challenge' x' c' s' =>
      obtain ⟨rfl, rfl, rfl, rfl, rfl⟩ := credentialProofMessage_inj h
      rfl

theorem ChannelContext.aad_injective : Function.Injective ChannelContext.aad := by
  rintro ⟨i, x, d, p⟩ ⟨i', x', d', p'⟩ h
  have hsplit (i : InstanceId) (x : Vector UInt8 32) (d : Direction)
      (p : DesktopCredentialPurpose) : credentialAad i.id x d.asBytes p =
        credentialChannelAadDomain ++ bytes i.id.toList ++ [0] ++
          (x.toList ++ (d.asBytes ++ p.asBytes)) := by
    simp only [credentialAad, List.append_assoc]
  have haad : credentialAad i.id x d.asBytes p = credentialAad i'.id x' d'.asBytes p' := h
  rw [hsplit, hsplit, id_inj, field_inj] at haad
  obtain ⟨rfl, rfl, htags⟩ := haad
  obtain ⟨rfl, rfl⟩ := direction_purpose_inj htags
  rfl

/-- What the route signs says one thing: the lengths it checks are those of a statement. -/
theorem signed_statement {challenge : List UInt8} {key : Option (List UInt8)}
    {x s : Vector UInt8 32}
    {message : List UInt8} (h : identityProof i.id challenge key x s = .ok message) :
    ∃ st : Statement, message = st.message ∧
      ∀ st' : Statement, st'.message = message → st' = st := by
  suffices hst : ∃ st : Statement, message = st.message by
    obtain ⟨st, rfl⟩ := hst
    exact ⟨st, rfl, fun st' heq => Statement.message_injective heq⟩
  unfold identityProof beginDesktopCredentialExchange at h
  split at h
  · cases h
  · rename_i hlen
    have hchallenge : challenge.length = 32 := not_not.1 hlen
    cases key with
    | none =>
      obtain rfl := Except.ok.inj h
      exact ⟨.identity i ⟨challenge.toArray, hchallenge⟩, rfl⟩
    | some key =>
      dsimp only at h
      split at h
      · rename_i hm
        split at hm
        · rename_i hkey
          obtain rfl := Except.ok.inj h
          obtain rfl := Except.ok.inj hm
          exact ⟨.credential i ⟨challenge.toArray, hchallenge⟩ x ⟨key.toArray, hkey⟩ s, rfl⟩
        · cases hm
      · cases h
      · cases h

end Unambiguous

/-- **Transcripts are unambiguous.**  The two proofs that one key signs are injective in all
their arguments together, and no identity proof is a credential proof; the authenticated data
of a channel is injective in the instance, the exchange, the direction and the purpose. -/
theorem transcripts_unambiguous :
    (∀ (i i' : InstanceId) (challenge challenge' : Vector UInt8 32),
      identityProofMessage i.id challenge.toList = identityProofMessage i'.id challenge'.toList →
        i = i' ∧ challenge = challenge') ∧
    (∀ (i i' : InstanceId) (challenge challenge' x x' c c' s s' : Vector UInt8 32),
      credentialProofMessage i.id challenge.toList x c s =
        credentialProofMessage i'.id challenge'.toList x' c' s' →
          i = i' ∧ challenge = challenge' ∧ x = x' ∧ c = c' ∧ s = s') ∧
    (∀ (i i' : InstanceId) (challenge challenge' x c s : Vector UInt8 32),
      identityProofMessage i.id challenge.toList ≠
        credentialProofMessage i'.id challenge'.toList x c s) ∧
    (∀ (i i' : InstanceId) (x x' : Vector UInt8 32) (d d' : Direction)
      (p p' : DesktopCredentialPurpose),
      credentialAad i.id x d.asBytes p = credentialAad i'.id x' d'.asBytes p' →
        i = i' ∧ x = x' ∧ d = d' ∧ p = p') := by
  refine ⟨fun _ _ _ _ h => identityProofMessage_inj h,
    fun _ _ _ _ _ _ _ _ _ _ h => credentialProofMessage_inj h,
    fun _ _ challenge challenge' x c s => identity_ne_credential challenge challenge' x c s, ?_⟩
  intro i i' x x' d d' p p' h
  have hctx := @ChannelContext.aad_injective ⟨i, x, d, p⟩ ⟨i', x', d', p'⟩ h
  cases hctx
  exact ⟨rfl, rfl, rfl, rfl⟩

end XpressClaw.Server
