import SealedLogin.Proofs.Envelope.Sealing
import SealedLogin.Proofs.Login.PreKeyLifecycle

/-!
# Refusals

A call that fails although the server lacks nothing was refused for what the caller sent
(`ProtocolError.blamesCaller`). The server lacks nothing if there are random bytes for the call, the
authenticator gives an answer, and the replies are short enough to be sealed; the last is so in
every run (`length_index_of_live`). A login is refused in one way only: it drops its index and draws
nothing (`login_eq_ok_or_refused`).
-/

namespace SealedLogin

namespace ProtocolError

/-- Whether the failure comes from what the caller sent or left out. -/
def blamesCaller : ProtocolError → Bool
  | .encode _ | .randomUnavailable _ | .store _ => false
  | _ => true

theorem blamesCaller_of_isAuthenticationFailure {e : ProtocolError}
    (h : e.isAuthenticationFailure = true) : e.blamesCaller = true := by
  cases e <;> first | rfl | cases h

theorem isAuthenticationFailure_of_isRefusal {e : ProtocolError} (h : e.isRefusal = true) :
    e.isAuthenticationFailure = true := by
  cases e <;> first | rfl | cases h

end ProtocolError

/-! ### Reading the keys of a client -/

theorem requireParameter_eq_error {value name : String} {e : ProtocolError}
    (h : requireParameter value name = .error e) : e = .missingParameter name := by
  unfold requireParameter at h
  split at h <;> cases h
  rfl

theorem PreKeyRequest.blamesCaller_of_keys {request : PreKeyRequest} {e : ProtocolError}
    (h : request.keys = .error e) : e.blamesCaller = true := by
  have hparameter : ∀ {value name : String}, requireParameter value name = .error e →
      e.blamesCaller = true := fun h => by rw [requireParameter_eq_error h]; rfl
  have hkey : ∀ {α : Type} {x : Except KeyFault α}, ProtocolError.ofKey x = .error e →
      e.blamesCaller = true := by
    intro α x h
    cases x <;> cases h
    rfl
  simp only [keys, bind_eq_error_iff] at h
  rcases h with h | ⟨_, -, h | ⟨_, -, h | ⟨_, -, h | ⟨_, -, h | ⟨_, -, h | ⟨_, -, h⟩⟩⟩⟩⟩⟩
  · exact hparameter h
  · exact hparameter h
  · exact hparameter h
  · exact hkey h
  · exact hkey h
  · exact hkey h
  · cases h

namespace LoginServer

variable {server : LoginServer} {s : ServerState} {left : Entropy} {calls : List ServerCall}
  {record : PreKeyRecord} {e : ProtocolError}

/-! ### The first round -/

theorem blamesCaller_of_answerPreKey {index : String} {client : ClientKeys}
    (hleft : SessionKeyMaterial.entropyLength ≤ left.length)
    (h : (server.answerPreKey index client left).1 = .error e) : e.blamesCaller = true := by
  have hmaterial : (SessionKeyMaterial.generate.adapt ProtocolError.ofCrypto :
      Drawing ProtocolError _) left = (.ok (.ofEntropy left), left.drop _) :=
    Drawing.adapt_eq_ok_iff.2 (SessionKeyMaterial.generate_eq_ok_iff.2 ⟨hleft, rfl, rfl⟩)
  rw [answerPreKey, Drawing.bind_of_ok hmaterial] at h
  refine Drawing.FailsOnly.bind (p := fun e => e.blamesCaller = true)
    (Drawing.failsOnly_ofExcept fun e' he' => ?_) (fun _ => Drawing.failsOnly_pure _) _ e h
  cases hagreed : (SessionKeyMaterial.ofEntropy left).derive client.exchange1 client.exchange2 with
  | error fault =>
    rw [hagreed] at he'
    cases he'
    rfl
  | ok keys =>
    rw [hagreed] at he'
    cases he'

theorem blamesCaller_of_issuePreKey {now : Tick} {identifier : String} {request : PreKeyRequest}
    (hleft : SessionKeyMaterial.entropyLength ≤ left.length)
    (h : (server.issuePreKey now identifier request s left).1.1 = .error e) :
    e.blamesCaller = true := by
  rw [issuePreKey, ServerStep.bind_apply, ServerStep.ofExcept_apply] at h
  cases hkeys : request.keys with
  | error e' =>
    rw [hkeys] at h
    cases h
    exact PreKeyRequest.blamesCaller_of_keys hkeys
  | ok client =>
    rw [hkeys] at h
    dsimp only at h
    rw [ServerStep.bind_apply, ServerStep.ofDrawing] at h
    rcases hanswer : server.answerPreKey (indexHead ++ identifier) client left with
      ⟨e' | ⟨record, response⟩, rest⟩
    · rw [hanswer] at h
      cases h
      exact blamesCaller_of_answerPreKey hleft (by rw [hanswer])
    · rw [hanswer] at h
      cases h

/-! ### The second round -/

/-- The number of characters of an identifier: four hyphens between 32 digits. -/
def identifierLength : Nat := 36

/-- The call is no issue under a longer identifier. -/
def NamesShortly (c : ServerCall) : Prop :=
  ∀ identifier request, c.request = .issue identifier request →
    identifier.length ≤ identifierLength

theorem length_index_of_live {index : String} {now : Tick} (hcalls : ∀ c ∈ calls, NamesShortly c)
    (h : (server.run .empty calls).preKeys.live? index now = some record) :
    record.index.length ≤ indexHead.length + identifierLength := by
  obtain ⟨-, _, before, c, hlatest, hissues, -⟩ := exists_waits_of_live h
  obtain ⟨identifier, request, hc, hindex, -⟩ := hissues.exists_request
  have hmem : c ∈ calls := List.IsPrefix.subset hlatest.came (by simp)
  have hle := hcalls c hmem identifier request hc
  rw [hindex, String.length_append]
  omega

/-- The random bytes of a login: those of the token, and those of the envelope that carries it. -/
def loginEntropyLength : Nat := tokenLength + Envelope.entropyLength

/-- A session opens if its reply can be sealed, for which stamp and index are short enough. -/
theorem exists_openSession {now : Instant} (hnow : now.IsRepresentable)
    (hindex : record.index.length ≤ indexHead.length + identifierLength)
    (hleft : loginEntropyLength ≤ left.length) (user : AuthenticatedUser) :
    ∃ session response rest,
      openSession now record user left = (.ok (session, response), rest) := by
  have hle : 112 ≤ left.length := hleft
  have hstamp := Utf8.length_encode_le (Stamp.print now)
  have hprint := Stamp.length_print_le hnow
  have hname := Utf8.length_encode_le record.index
  have htoken : (Utf8.encode (freshToken left)).length ≤ 4 * 128 := by
    refine Nat.le_trans (Utf8.length_encode_le _) ?_
    rw [freshToken, Hex.length_encode, List.length_take, tokenLength]
    omega
  have hlimit : Record.sizeLimit = 4294967296 := rfl
  have hhead : indexHead.length + identifierLength = 43 := rfl
  obtain ⟨reply, hpack⟩ := @Envelope.exists_pack_of_blockSize now record.index
    [Record.ofString (freshToken left)] (left.drop tokenLength) record.serverSigning
    record.keys.serverToClient
    (by rw [List.length_drop]; show 48 ≤ left.length - 64; omega)
    (by
      simp only [Envelope.partsSize, Envelope.blockSize, Record.encodedLengths,
        Record.encodedLength, Record.ofString]
      omega)
  exact ⟨_, ⟨reply⟩, _, openSession_eq_ok_iff.2 ⟨Nat.le_of_add_right_le hleft, rfl, hpack⟩⟩

/-- A login with an index and an envelope succeeds, or is refused for what the caller sent. Whatever
is wrong with it, it then takes what is kept under its index and leaves everything else. -/
theorem login_eq_ok_or_refused {now : Moment} {request : LoginRequest}
    (hanswers : ∀ attempt, ∃ answer, server.authenticate attempt = .ok answer)
    (hindex : ∀ record, s.preKeys.live? request.i now.tick = some record →
      record.index.length ≤ indexHead.length + identifierLength)
    (hnow : now.wall.IsRepresentable) (hleft : loginEntropyLength ≤ left.length)
    (hi : request.i ≠ "") (hd : request.d ≠ "") :
    (∃ response, (server.login now request s left).1.1 = .ok response)
      ∨ ∃ e, e.isAuthenticationFailure = true ∧ server.login now request s left
        = ((.error e, ⟨s.preKeys.erase request.i, s.sessions⟩), left) := by
  rw [login_apply hi hd]
  cases hlive : s.preKeys.live? request.i now.tick with
  | none => exact .inr ⟨.preKeyNotFound, rfl, rfl⟩
  | some record =>
    dsimp only
    cases hread : server.readLogin now.wall record request.d with
    | error e =>
      refine .inr ⟨e, ?_, answerLogin_of_readLogin_eq_error hread⟩
      rcases eq_of_readLogin_eq_error hread with he | rfl | ⟨_, attempt, -, -, hfails⟩
      · exact ProtocolError.isAuthenticationFailure_of_isRefusal he
      · rfl
      · obtain ⟨answer, hanswer⟩ := hanswers attempt
        cases hanswer.symm.trans hfails
    | ok user =>
      obtain ⟨session, response, rest, hopen⟩ :=
        exists_openSession hnow (hindex record hlive) hleft user
      refine .inl ⟨response, ?_⟩
      rw [answerLogin_eq_ok_iff.2 ⟨user, session, hread, hopen, rfl⟩]

theorem blamesCaller_of_login {now : Moment} {request : LoginRequest}
    (hanswers : ∀ attempt, ∃ answer, server.authenticate attempt = .ok answer)
    (hindex : ∀ record, s.preKeys.live? request.i now.tick = some record →
      record.index.length ≤ indexHead.length + identifierLength)
    (hnow : now.wall.IsRepresentable) (hleft : loginEntropyLength ≤ left.length)
    (h : (server.login now request s left).1.1 = .error e) : e.blamesCaller = true := by
  by_cases hmissing : request.i = "" ∨ request.d = ""
  · obtain ⟨name, hlogin⟩ := @login_of_missing server s left now request hmissing
    rw [hlogin] at h
    cases h
    rfl
  · obtain ⟨hi, hd⟩ := not_or.1 hmissing
    rcases login_eq_ok_or_refused hanswers hindex hnow hleft hi hd with
      ⟨response, hlogin⟩ | ⟨e', he', hlogin⟩
    · cases hlogin.symm.trans h
    · rw [hlogin] at h
      cases h
      exact ProtocolError.blamesCaller_of_isAuthenticationFailure he'

/-! ### Tokens -/

theorem blamesCaller_of_logout {now : Tick} {token : String}
    (h : (logout now token s left).1.1 = .error e) : e.blamesCaller = true := by
  by_cases htoken : token = ""
  · subst htoken
    cases h
    rfl
  · rw [result_of_logout now s left htoken] at h
    split at h <;> cases h
    rfl

theorem blamesCaller_of_resolve {now : Tick} {token : String}
    (h : (server.resolve now token s left).1.1 = .error e) : e.blamesCaller = true := by
  by_cases htoken : token = ""
  · subst htoken
    cases h
    rfl
  · rw [result_of_resolve server now s left htoken] at h
    split at h <;> cases h
    rfl

end LoginServer

end SealedLogin
