import SealedLogin.Password.CredentialFile
import SealedLogin.Proofs.Login.Steps

/-!
# How the steps of a login fail

Each step has its kinds of failures. An envelope that does not open is refused
(`ProtocolError.isRefusal`), one that cannot be made is the fault of this side
(`ProtocolError.isInternal`). A login whose index and envelope are there fails as the reading of the
envelope does, or as the authenticator does, or as the making of the reply does.
-/

namespace SealedLogin

namespace ProtocolError

/-- The failure of an envelope or a payload that does not hold what it should. -/
def isRefusal : ProtocolError → Bool
  | .decode _ | .invalidData _ | .invalidSignature | .timeExpired | .invalidPreKey
  | .invalidDataHash => true
  | _ => false

/-- The failure to make something, be it for want of random bytes or for its size. -/
def isInternal : ProtocolError → Bool
  | .encode _ | .randomUnavailable _ => true
  | _ => false

theorem isInternal_of_ofWrite {α : Type} {x : Except Record.Oversize α} {e : ProtocolError}
    (h : ofWrite x = .error e) : e.isInternal = true := by
  cases x <;> cases h
  rfl

theorem isRefusal_of_ofRead {α : Type} {x : Except Record.Fault α} {e : ProtocolError}
    (h : ofRead x = .error e) : e.isRefusal = true := by
  cases x <;> cases h
  rfl

end ProtocolError

/-! ### Envelopes -/

namespace Envelope

theorem failsOnly_pack (now : Instant) (index : String) (signer : SigningIdentity)
    (key : SymmetricKey) (payloads : List Record) :
    (pack now index signer key payloads).FailsOnly (·.isInternal = true) := by
  refine (Drawing.failsOnly_ofExcept fun _ => ProtocolError.isInternal_of_ofWrite).bind fun _ => ?_
  refine Drawing.FailsOnly.bind ?_ fun block => ?_
  · refine Drawing.FailsOnly.bind ?_ fun _ => Drawing.failsOnly_pure _
    refine Drawing.FailsOnly.bind ?_ fun _ => Drawing.failsOnly_pure _
    exact Drawing.failsOnly_adapt (Entropy.failsOnly_draw _) fun _ _ => rfl
  · refine (Drawing.failsOnly_ofExcept fun _ => ProtocolError.isInternal_of_ofWrite).bind
      fun _ => ?_
    refine Drawing.FailsOnly.bind ?_ fun _ =>
      Drawing.failsOnly_ofExcept fun _ => ProtocolError.isInternal_of_ofWrite
    refine Drawing.failsOnly_adapt (q := (· = .randomUnavailable .exhausted)) ?_ ?_
    · exact (Entropy.failsOnly_drawKeyBytes _).bind fun _ => Drawing.failsOnly_pure _
    · rintro _ rfl
      rfl

theorem isRefusal_of_unpack {now : Instant} {index : String} {signer : VerifyingKey}
    {key : SymmetricKey} {ttl : Duration} {text : String} {e : ProtocolError}
    (h : unpack now index signer key ttl text = .error e) : e.isRefusal = true := by
  have hrefusal : Refusal now index signer key ttl text e.code := refusal_iff.2 ⟨e, h, rfl⟩
  -- The code must be a variable for the rules to be told apart.
  generalize hcode : e.code = code at hrefusal
  cases hrefusal <;> cases e <;> first | rfl | exact absurd hcode (by simp [ProtocolError.code])

end Envelope

/-! ### Credentials -/

namespace LoginAttempt

theorem eq_of_ofPayloads_eq_error {payloads : List Record} {e : ProtocolError}
    (h : ofPayloads payloads = .error e) : e.isRefusal = true ∨ e = .invalidCredential := by
  match payloads with
  | [] | [_] =>
    cases h
    exact .inr rfl
  | loginId :: password :: rest =>
    simp only [ofPayloads, bind_eq_error_iff] at h
    rcases h with h | ⟨_, -, h | ⟨_, -, h | ⟨_, -, h⟩⟩⟩
    · exact .inl (ProtocolError.isRefusal_of_ofRead h)
    · exact .inl (ProtocolError.isRefusal_of_ofRead h)
    · cases hrest : rest.head? with
      | none =>
        rw [hrest] at h
        cases h
      | some r =>
        rw [hrest, optionalPayloadText] at h
        cases hread : payloadText r with
        | error e' =>
          rw [hread] at h
          cases h
          exact .inl (ProtocolError.isRefusal_of_ofRead hread)
        | ok text =>
          rw [hread] at h
          cases h
    · split at h
      · cases h
        exact .inr rfl
      · cases h

end LoginAttempt

/-- A credential file fails only if a hash in it is none. -/
theorem CredentialFile.eq_store_of_authenticate {file : CredentialFile} {attempt : LoginAttempt}
    {e : ProtocolError} (h : file.authenticate attempt = .error e) :
    ∃ reason, e = .store reason := by
  have hstored : ∀ {text e}, storedHash text = .error e → ∃ reason, e = .store reason := by
    intro text e h
    unfold storedHash at h
    split at h <;> cases h
    exact ⟨_, rfl⟩
  unfold authenticate at h
  split at h
  · rcases bind_eq_error_iff.1 h with h | ⟨_, -, h⟩
    · exact hstored h
    · cases h
  · rcases bind_eq_error_iff.1 h with h | ⟨_, -, h⟩
    · exact hstored h
    · split at h <;> cases h

/-! ### The second round -/

namespace LoginServer

variable {server : LoginServer} {s : ServerState} {left : Entropy} {record : PreKeyRecord}
  {e : ProtocolError}

/-- The authenticator, asked about the credentials in the envelope, fails with the error. -/
def AuthenticatorFails (server : LoginServer) (now : Instant) (record : PreKeyRecord)
    (envelope : String) (e : ProtocolError) : Prop :=
  ∃ payloads attempt, Envelope.unpack now record.index record.clientSigningKey
      record.keys.clientToServer server.lifetimes.envelope envelope = .ok payloads
    ∧ LoginAttempt.ofPayloads payloads = .ok attempt ∧ server.authenticate attempt = .error e

theorem eq_of_readLogin_eq_error {now : Instant} {envelope : String}
    (h : server.readLogin now record envelope = .error e) :
    e.isRefusal = true ∨ e = .invalidCredential
      ∨ server.AuthenticatorFails now record envelope e := by
  simp only [readLogin, bind_eq_error_iff] at h
  rcases h with h | ⟨payloads, hunpack, h | ⟨attempt, hattempt, h | ⟨answer, -, h⟩⟩⟩
  · exact .inl (Envelope.isRefusal_of_unpack h)
  · exact (LoginAttempt.eq_of_ofPayloads_eq_error h).imp_right .inl
  · exact .inr (.inr ⟨payloads, attempt, hunpack, hattempt, h⟩)
  · cases answer <;> cases h
    exact .inr (.inl rfl)

/-- Credentials that the authenticator does not know are read in vain. -/
theorem readLogin_of_authenticate_eq_none {now : Instant} {envelope : String}
    {payloads : List Record} {attempt : LoginAttempt}
    (hunpack : Envelope.unpack now record.index record.clientSigningKey record.keys.clientToServer
      server.lifetimes.envelope envelope = .ok payloads)
    (hattempt : LoginAttempt.ofPayloads payloads = .ok attempt)
    (hnone : server.authenticate attempt = .ok none) :
    server.readLogin now record envelope = .error .invalidCredential := by
  simp only [readLogin, bind_eq_error_iff]
  exact .inr ⟨payloads, hunpack, .inr ⟨attempt, hattempt, .inr ⟨none, hnone, rfl⟩⟩⟩

theorem readLogin_of_authenticatorFails {now : Instant} {envelope : String}
    (h : server.AuthenticatorFails now record envelope e) :
    server.readLogin now record envelope = .error e := by
  obtain ⟨payloads, attempt, hunpack, hattempt, h⟩ := h
  simp only [readLogin, bind_eq_error_iff]
  exact .inr ⟨payloads, hunpack, .inr ⟨attempt, hattempt, .inl h⟩⟩

theorem failsOnly_openSession (now : Instant) (record : PreKeyRecord) (user : AuthenticatedUser) :
    (openSession now record user).FailsOnly (·.isInternal = true) := by
  refine Drawing.FailsOnly.bind ?_ fun secret => ?_
  · exact Drawing.failsOnly_adapt (Entropy.failsOnly_draw _) fun _ _ => rfl
  · exact (Envelope.failsOnly_pack _ _ _ _ _).bind fun _ => Drawing.failsOnly_pure _

theorem answerLogin_of_readLogin_eq_error {now : Moment} {envelope : String}
    (h : server.readLogin now.wall record envelope = .error e) :
    server.answerLogin now envelope record s left = ((.error e, s), left) := by
  rw [answerLogin, ServerStep.bind_apply, ServerStep.ofExcept_apply, h]

/-- A login whose envelope cannot be read takes the record of its index, and draws nothing. -/
theorem login_of_readLogin_eq_error {now : Moment} {request : LoginRequest} (hi : request.i ≠ "")
    (hd : request.d ≠ "") (hlive : s.preKeys.live? request.i now.tick = some record)
    (h : server.readLogin now.wall record request.d = .error e) : server.login now request s left
      = ((.error e, ⟨s.preKeys.erase request.i, s.sessions⟩), left) := by
  rw [login_apply hi hd, hlive]
  exact answerLogin_of_readLogin_eq_error h

/-- A login that has its record fails in reading the envelope, or in making the reply. -/
theorem answerLogin_eq_error {now : Moment} {envelope : String}
    (h : (server.answerLogin now envelope record s left).1.1 = .error e) :
    server.readLogin now.wall record envelope = .error e
      ∨ (∃ user, server.readLogin now.wall record envelope = .ok user) ∧ e.isInternal = true := by
  cases hread : server.readLogin now.wall record envelope with
  | error e' =>
    rw [answerLogin_of_readLogin_eq_error hread] at h
    cases h
    exact .inl rfl
  | ok user =>
    refine .inr ⟨⟨user, rfl⟩, ?_⟩
    rw [answerLogin, ServerStep.bind_apply, ServerStep.ofExcept_apply, hread] at h
    dsimp only at h
    rw [ServerStep.bind_apply, ServerStep.ofDrawing] at h
    have hopen := failsOnly_openSession now.wall record user left
    rcases hleft : openSession now.wall record user left with ⟨e' | ⟨session, response⟩, rest⟩
    · rw [hleft] at h hopen
      cases h
      exact hopen e rfl
    · rw [hleft] at h
      cases h

end LoginServer

end SealedLogin
