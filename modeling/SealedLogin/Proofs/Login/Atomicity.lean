import SealedLogin.Proofs.Login.PreKeyLifecycle
import SealedLogin.Proofs.Login.SessionLifetime
import SealedLogin.Proofs.Store.LiveEntries

/-!
# What failed calls leave

A call that fails changes nothing, but for two: a login that has named an index uses it up, and a
logout drops a session that has expired (`failure_atomicity`). So nothing is kept that the client
was not told of.
-/

namespace SealedLogin

theorem ProtocolError.code_eq_missingParameter_iff {e : ProtocolError} :
    e.code = "MISSING_PARAMETER" ↔ ∃ name, e = .missingParameter name := by
  cases e <;> simp [code]

namespace LoginServer

variable {server : LoginServer} {s s' : ServerState} {left rest : Entropy} {token index : String}
  {calls : List ServerCall} {session : SessionRecord} {record : PreKeyRecord} {e : ProtocolError}

/-! ### Logins -/

/-- The login gets as far as the authenticator, which fails with the error. -/
def Reports (server : LoginServer) (s : ServerState) (now : Moment) (request : LoginRequest)
    (e : ProtocolError) : Prop :=
  request.i ≠ "" ∧ request.d ≠ "" ∧ ∃ record, s.preKeys.live? request.i now.tick = some record
    ∧ server.AuthenticatorFails now.wall record request.d e

theorem login_of_reports {now : Moment} {request : LoginRequest}
    (h : server.Reports s now request e) : server.login now request s left
      = ((.error e, ⟨s.preKeys.erase request.i, s.sessions⟩), left) := by
  obtain ⟨hi, hd, record, hlive, hfails⟩ := h
  exact login_of_readLogin_eq_error hi hd hlive (readLogin_of_authenticatorFails hfails)

theorem state_of_login_of_missingParameter {now : Moment} {request : LoginRequest} {name : String}
    (h : server.login now request s left = ((.error (.missingParameter name), s'), rest))
    (hown : ¬server.Reports s now request (.missingParameter name)) : s' = s := by
  by_cases hmissing : request.i = "" ∨ request.d = ""
  · have hstate := @state_of_login_of_missing server s left now request hmissing
    rw [h] at hstate
    exact hstate
  · obtain ⟨hi, hd⟩ := not_or.1 hmissing
    rw [login_apply hi hd] at h
    cases hlive : s.preKeys.live? request.i now.tick with
    | none =>
      rw [hlive] at h
      cases h
    | some record =>
      rw [hlive] at h
      dsimp only at h
      have hfails := congrArg (·.1.1) h
      rcases answerLogin_eq_error hfails with hread | ⟨-, he⟩
      · rcases eq_of_readLogin_eq_error hread with he | he | hreports
        · cases he
        · cases he
        · exact absurd ⟨hi, hd, record, hlive, hreports⟩ hown
      · cases he

theorem state_of_login_of_ne_missingParameter {now : Moment} {request : LoginRequest}
    (h : server.login now request s left = ((.error e, s'), rest))
    (he : e.code ≠ "MISSING_PARAMETER" ∨ server.Reports s now request e) :
    s' = ⟨s.preKeys.erase request.i, s.sessions⟩ := by
  by_cases hmissing : request.i = "" ∨ request.d = ""
  · obtain ⟨name, hlogin⟩ := @login_of_missing server s left now request hmissing
    rw [hlogin] at h
    cases h
    rcases he with hcode | ⟨hi, hd, -⟩
    · exact absurd rfl hcode
    · exact (hmissing.elim hi hd).elim
  · obtain ⟨hi, hd⟩ := not_or.1 hmissing
    exact state_of_login_of_not_missing hi hd h

/-- A reply is not sealed with fewer random bytes than its token and its envelope take. -/
theorem not_openSession_of_lt {now : Instant} {user : AuthenticatedUser} {session : SessionRecord}
    {response : LoginResponse} (hleft : left.length < tokenLength + Envelope.entropyLength) :
    openSession now record user left ≠ (.ok (session, response), rest) := by
  intro hopen
  obtain ⟨_, -, hpack⟩ := openSession_eq_ok_iff.1 hopen
  obtain ⟨_, _, -, hle, -⟩ := Envelope.pack_eq_ok_iff.1 hpack
  rw [List.length_drop] at hle
  omega

/-- A login that finds its user, but not enough random bytes for a reply, fails for that. -/
theorem exists_login_eq_error {now : Moment} {request : LoginRequest} {user : AuthenticatedUser}
    (hi : request.i ≠ "") (hd : request.d ≠ "")
    (hlive : s.preKeys.live? request.i now.tick = some record)
    (huser : server.readLogin now.wall record request.d = .ok user)
    (hleft : left.length < tokenLength + Envelope.entropyLength) :
    ∃ e rest, e.isInternal = true ∧ server.login now request s left
      = ((.error e, ⟨s.preKeys.erase request.i, s.sessions⟩), rest) := by
  rcases h : server.login now request s left with ⟨⟨e | response, s'⟩, rest⟩
  · refine ⟨e, rest, ?_, by rw [state_of_login_of_not_missing hi hd h]⟩
    rw [login_apply hi hd, hlive] at h
    rcases answerLogin_eq_error (congrArg (·.1.1) h) with hread | ⟨-, hinternal⟩
    · cases huser.symm.trans hread
    · exact hinternal
  · obtain ⟨-, -, _, _, _, -, -, hopen, -⟩ := login_eq_ok_iff.1 h
    exact absurd hopen (not_openSession_of_lt hleft)

/-- The reply carries the token that is made from the front of the bytes, sealed for the owner of
the record. -/
def SealsToken (now : Instant) (record : PreKeyRecord) (left : Entropy) (reply : LoginResponse) :
    Prop :=
  (Envelope.pack now record.index record.serverSigning record.keys.serverToClient
    [Record.ofString (freshToken left)] (left.drop tokenLength)).1 = .ok reply.d

theorem login_eq_ok {now : Moment} {request : LoginRequest} {response : LoginResponse}
    (h : server.login now request s left = ((.ok response, s'), rest)) :
    ∃ record session, s.preKeys.live? request.i now.tick = some record
      ∧ SealsToken now.wall record left response ∧ session.token = freshToken left
      ∧ s' = ⟨s.preKeys.erase request.i,
          s.sessions.put session now.tick server.lifetimes.session⟩ := by
  obtain ⟨-, -, record, user, session, hlive, -, hopen, hstate⟩ := login_eq_ok_iff.1 h
  obtain ⟨-, rfl, hpack⟩ := openSession_eq_ok_iff.1 hopen
  exact ⟨record, _, hlive, congrArg Prod.fst hpack, rfl, hstate⟩

/-! ### Tokens -/

theorem state_of_resolve_eq_error {now : Tick}
    (h : (server.resolve now token s left).1.1 = .error e) :
    (server.resolve now token s left).1.2 = s := by
  by_cases htoken : token = ""
  · subst htoken
    rfl
  · rw [resolve_apply htoken] at h ⊢
    cases hfound : (s.sessions.lookup token).filter (·.isLive now) with
    | none => rfl
    | some e' =>
      rw [hfound] at h
      cases h

/-- The entry that a failing logout drops has expired. -/
theorem state_of_logout_eq_error {now : Tick} (h : (logout now token s left).1.1 = .error e) :
    (logout now token s left).1.2.preKeys = s.preKeys
      ∧ ExpiringTable.SameLive now s.sessions (logout now token s left).1.2.sessions := by
  by_cases htoken : token = ""
  · subst htoken
    exact ⟨rfl, .refl now s.sessions⟩
  · rw [logout_apply htoken] at h ⊢
    refine ⟨rfl, fun key => ?_⟩
    by_cases hkey : key = token
    · subst hkey
      rw [ExpiringTable.liveAt?_erase_self]
      by_cases hlive : (s.sessions.live? key now).isSome
      · rw [if_pos hlive] at h
        cases h
      · simpa [ExpiringTable.live?_eq_map_liveAt?] using hlive
    · rw [ExpiringTable.liveAt?_erase_of_ne hkey]

/-! ### What is kept in a run -/

theorem exists_sealed_of_contains
    (h : (server.run .empty calls).sessions.Contains token session) :
    ∃ before c request response record, Came calls before c ∧ c.request = .login request
      ∧ (server.login c.now request (server.run .empty before) c.entropy).1.1 = .ok response
      ∧ token = freshToken c.entropy ∧ SealsToken c.now.wall record c.entropy response := by
  obtain ⟨e, hmem, -⟩ := h
  obtain ⟨session, _, ⟨before, c, hlatest, hadmits, -⟩, -, rfl, -⟩ := exists_opened_of_mem hmem
  obtain ⟨request, response, rest, hc, hlogin⟩ := id hadmits
  obtain ⟨-, -, htoken, -⟩ := hadmits.exists_record hc
  obtain ⟨record, _, -, hseals, -⟩ := login_eq_ok hlogin
  exact ⟨before, c, request, response, record, hlatest.came, hc, by rw [hlogin], htoken, hseals⟩

theorem exists_issuesIndex_of_contains
    (h : (server.run .empty calls).preKeys.Contains index record) :
    ∃ before c, Came calls before c ∧ server.IssuesIndex (server.run .empty before) c index := by
  obtain ⟨e, hmem, -⟩ := h
  obtain ⟨record, _, ⟨before, c, hlatest, hissues, -⟩, rfl, -⟩ := exists_waits_of_mem hmem
  exact ⟨before, c, hlatest.came, hissues.issuesIndex⟩

/-! ### The outcome -/

/-- Whatever a server keeps, whoever decides about credentials and wherever the random bytes run
out: an issue or a resolve that fails changes nothing, and a failing logout nothing that is live. A
login that fails for a missing parameter changes nothing, one that fails otherwise takes no more
than what is kept under its index, and one that succeeds adds the session of the token that it has
sealed. An authenticator that reports a missing parameter of its own accord is told apart. In a run,
each session goes back to a sealed reply, and each pre-key to an answer with its index. -/
theorem failure_atomicity (server : LoginServer) :
    (∀ s left now identifier request e,
      (server.issuePreKey now identifier request s left).1.1 = .error e →
      (server.issuePreKey now identifier request s left).1.2 = s)
    ∧ (∀ s left now request e, (server.login now request s left).1.1 = .error e →
      (e.code = "MISSING_PARAMETER" → ¬server.Reports s now request e →
        (server.login now request s left).1.2 = s)
      ∧ (e.code ≠ "MISSING_PARAMETER" ∨ server.Reports s now request e →
        (server.login now request s left).1.2 = ⟨s.preKeys.erase request.i, s.sessions⟩))
    ∧ (∀ s left now request response, (server.login now request s left).1.1 = .ok response →
      ∃ record session, s.preKeys.live? request.i now.tick = some record
        ∧ SealsToken now.wall record left response ∧ session.token = freshToken left
        ∧ (server.login now request s left).1.2 = ⟨s.preKeys.erase request.i,
          s.sessions.put session now.tick server.lifetimes.session⟩
        ∧ ∀ token, token ≠ freshToken left →
          (server.login now request s left).1.2.sessions.lookup token = s.sessions.lookup token)
    ∧ (∀ s left now token e, (server.resolve now token s left).1.1 = .error e →
      (server.resolve now token s left).1.2 = s)
    ∧ (∀ s left now token e, (logout now token s left).1.1 = .error e →
      (logout now token s left).1.2.preKeys = s.preKeys
        ∧ ExpiringTable.SameLive now s.sessions (logout now token s left).1.2.sessions)
    ∧ ∀ calls,
      (∀ token session, (server.run .empty calls).sessions.Contains token session →
        ∃ before c request response record, Came calls before c ∧ c.request = .login request
          ∧ (server.login c.now request (server.run .empty before) c.entropy).1.1 = .ok response
          ∧ token = freshToken c.entropy ∧ SealsToken c.now.wall record c.entropy response)
      ∧ ∀ index record, (server.run .empty calls).preKeys.Contains index record →
        ∃ before c, Came calls before c
          ∧ server.IssuesIndex (server.run .empty before) c index := by
  refine ⟨?_, ?_, ?_, fun _ _ _ _ _ => state_of_resolve_eq_error,
    fun _ _ _ _ _ => state_of_logout_eq_error, fun calls => ⟨fun _ _ => exists_sealed_of_contains,
    fun _ _ => exists_issuesIndex_of_contains⟩⟩
  · intro s left now identifier request e he
    rcases h : server.issuePreKey now identifier request s left with ⟨⟨_, s'⟩, rest⟩
    rw [h] at he
    subst he
    exact state_of_issuePreKey_eq_error h
  · intro s left now request e he
    rcases h : server.login now request s left with ⟨⟨_, s'⟩, rest⟩
    rw [h] at he
    subst he
    refine ⟨fun hcode hown => ?_, state_of_login_of_ne_missingParameter h⟩
    obtain ⟨name, rfl⟩ := ProtocolError.code_eq_missingParameter_iff.1 hcode
    exact state_of_login_of_missingParameter h hown
  · intro s left now request response hok
    rcases h : server.login now request s left with ⟨⟨_, s'⟩, rest⟩
    rw [h] at hok
    subst hok
    obtain ⟨record, session, hlive, hseals, htoken, rfl⟩ := login_eq_ok h
    refine ⟨record, session, hlive, hseals, htoken, rfl, fun token hne => ?_⟩
    exact ExpiringTable.lookup_insert_of_ne (htoken ▸ hne)

end LoginServer

namespace Encounter

section

variable {e : Encounter} {keys : DirectionalKeys} {user : AuthenticatedUser} {envelope : String}

/-- What the server keeps after the login, when the client has got its pre-key once more. -/
def reissued (e : Encounter) (keys : DirectionalKeys) (user : AuthenticatedUser) : ServerState :=
  ({ e with state := e.closed keys user } : Encounter).issued keys

/-- A login on which the authenticator fails has used its index up, whatever the failure is. -/
theorem exists_login_of_seals {server : LoginServer} {fault : ProtocolError}
    (h : e.Honest keys user) (hstate : e.state = .empty) (hseals : e.Seals keys envelope)
    (hlifetimes : server.lifetimes = e.server.lifetimes)
    (hfault : server.authenticate e.credentials.attempt = .error fault) (left : Entropy) :
    ∃ s s', server.run .empty [e.issueCall] = s
      ∧ server.login e.loginAt ⟨e.index, envelope⟩ s left = ((.error fault, s'), left)
      ∧ s' ≠ s := by
  have hlive := live_preKey_issueCall h hstate hlifetimes
  have hreports : server.Reports (server.run .empty [e.issueCall]) e.loginAt ⟨e.index, envelope⟩
      fault :=
    ⟨e.index_ne_empty, hseals.ne_empty, e.preKey keys, hlive,
      hseals.authenticatorFails h hlifetimes hfault⟩
  refine ⟨_, _, rfl, LoginServer.login_of_reports hreports, fun hsame => ?_⟩
  have hpreKeys := congrArg ServerState.preKeys hsame
  exact ExpiringTable.erase_ne_of_live? hlive hpreKeys

/-- The first round goes the same way in any state, and so after the login. -/
theorem issues_again (h : e.Honest keys user) (s : ServerState) :
    e.server.Issues s e.issueCall (e.preKey keys) :=
  issues_issueCall (h.resumed s)

theorem run_eq_reissued (h : e.Honest keys user) (hstate : e.state = .empty)
    (hbetween : e.between = []) (hseals : e.Seals keys envelope) :
    e.server.run .empty [e.issueCall, e.loginCall envelope, e.issueCall]
      = e.reissued keys user := by
  obtain ⟨answer, hopen, -⟩ := exists_answer h
  have hissue : e.server.after .empty e.issueCall = e.issued keys := by
    rw [← LoginServer.run_singleton]
    exact run_issueCall h hstate rfl
  have hlogin := login_eq h hseals hopen
  rw [hbetween] at hlogin
  have hclosed : e.server.after (e.issued keys) (e.loginCall envelope) = e.closed keys user :=
    congrArg (·.1.2) hlogin
  rw [LoginServer.run, List.foldl_cons, List.foldl_cons, List.foldl_cons, List.foldl_nil, hissue,
    hclosed]
  exact (issues_again h _).after_eq

theorem live_preKey_reissued (h : e.Honest keys user) :
    (e.reissued keys user).preKeys.live? e.index e.loginAt.tick = some (e.preKey keys) :=
  ExpiringTable.live?_insert_start _ _ _ h.in_time

theorem live_session_reissued (keys : DirectionalKeys) (user : AuthenticatedUser) {now : Tick}
    (h : now < e.loginAt.tick + e.server.lifetimes.session) :
    (e.reissued keys user).sessions.live? e.token now = some (e.record user) :=
  live_session_closed keys user h

/-- The same login once more, with the random bytes for a token but none for the envelope around it,
finds its user and then fails. -/
theorem exists_login_reissued {left : Entropy} (h : e.Honest keys user)
    (hseals : e.Seals keys envelope)
    (hleft : left.length < LoginServer.tokenLength + Envelope.entropyLength) :
    ∃ fault rest, fault.isInternal = true
      ∧ e.server.login e.loginAt ⟨e.index, envelope⟩ (e.reissued keys user) left
        = ((.error fault, ⟨(e.reissued keys user).preKeys.erase e.index,
          (e.reissued keys user).sessions⟩), rest) :=
  LoginServer.exists_login_eq_error e.index_ne_empty hseals.ne_empty (live_preKey_reissued h)
    (hseals.readLogin_eq h) hleft

/-- The session of the first time is still there then. -/
theorem exists_login_again {left : Entropy} (h : e.Honest keys user) (hstate : e.state = .empty)
    (hbetween : e.between = []) (hseals : e.Seals keys envelope)
    (hlasts : e.loginAt.tick < e.loginAt.tick + e.server.lifetimes.session)
    (hleft : left.length < LoginServer.tokenLength + Envelope.entropyLength) :
    ∃ s s' fault rest,
      e.server.run .empty [e.issueCall, e.loginCall envelope, e.issueCall] = s
      ∧ e.server.login e.loginAt ⟨e.index, envelope⟩ s left = ((.error fault, s'), rest)
      ∧ fault.isInternal = true
      ∧ s'.sessions.live? e.token e.loginAt.tick = some (e.record user) := by
  obtain ⟨fault, rest, hinternal, hlogin⟩ := exists_login_reissued h hseals hleft
  exact ⟨e.reissued keys user, _, fault, rest, run_eq_reissued h hstate hbetween hseals, hlogin,
    hinternal, live_session_reissued keys user hlasts⟩

end

/-- The login after the leap second with nobody else there. -/
def leapAlone : Encounter := { leap with between := [] }

theorem honest_leapAlone : leapAlone.Honest leapKeys ⟨"user", none⟩ := honest_leap.alone

/-- The random bytes for its token, and none for the envelope around it. -/
def leapShort : Entropy := leapAlone.loginEntropy.take LoginServer.tokenLength

theorem freshToken_leapShort : LoginServer.freshToken leapShort = leapAlone.token := by
  rw [token, LoginServer.freshToken, LoginServer.freshToken, leapShort, List.take_take,
    Nat.min_self]

/-- Two kinds of failure leave something else than it may seem. An authenticator may itself fail as
if a parameter were missing, when the login has already used its index up. And if a token cannot be
sealed that was drawn before, there is a session for it nevertheless: that of the first time. -/
theorem failure_atomicity_leap : ∃ envelope, leap.Seals leapKeys envelope
    ∧ (ProtocolError.missingParameter "login_id").code = "MISSING_PARAMETER"
    ∧ (∃ s s', (leapFailing (.missingParameter "login_id")).run .empty [leap.issueCall] = s
      ∧ (leapFailing (.missingParameter "login_id")).login leap.loginAt ⟨leap.index, envelope⟩ s []
        = ((.error (.missingParameter "login_id"), s'), [])
      ∧ s' ≠ s)
    ∧ leapAlone.server.readLogin leapAlone.loginAt.wall (leapAlone.preKey leapKeys) envelope
      = .ok ⟨"user", none⟩
    ∧ LoginServer.freshToken leapShort = leapAlone.token
    ∧ ∃ s s' fault rest, leapAlone.server.run .empty
        [leapAlone.issueCall, leapAlone.loginCall envelope, leapAlone.issueCall] = s
      ∧ leapAlone.server.login leapAlone.loginAt ⟨leapAlone.index, envelope⟩ s leapShort
        = ((.error fault, s'), rest)
      ∧ fault.isInternal = true
      ∧ s'.sessions.live? leapAlone.token leapAlone.loginAt.tick
        = some (leapAlone.record ⟨"user", none⟩) := by
  obtain ⟨envelope, hseals⟩ := exists_seals honest_leap
  have hsealsAlone : leapAlone.Seals leapKeys envelope := hseals.alone
  have hleft : leapShort.length < LoginServer.tokenLength + Envelope.entropyLength := by
    decide +kernel
  have hlasts : leapAlone.loginAt.tick
      < leapAlone.loginAt.tick + leapAlone.server.lifetimes.session := by decide
  have hfails := @exists_login_of_seals leap leapKeys _ envelope
    (leapFailing (.missingParameter "login_id")) _ honest_leap rfl hseals rfl rfl []
  have hagain := exists_login_again honest_leapAlone rfl rfl hsealsAlone hlasts hleft
  exact ⟨envelope, hseals, rfl, hfails, hsealsAlone.readLogin_eq honest_leapAlone,
    freshToken_leapShort, hagain⟩

end Encounter

end SealedLogin
