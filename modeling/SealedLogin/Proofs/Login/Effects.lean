import SealedLogin.Proofs.Login.Calls

/-!
# What a call does

A call may issue a pre-key, admit a user, resolve a token or end a session (`Issues`, `Admits`,
`Resolves`, `Ends`). All that it can do to what the server keeps is listed in `PreKeyEffect` and
`SessionEffect`. From these it is derived what is in the stores after a call (`mem_preKeys_after`,
`mem_sessions_after`) and what has stayed there (`lookup_preKeys_after`, `lookup_sessions_after`).
-/

namespace SealedLogin

/-- The call is a login with an index and an envelope, and so takes what is kept under the index. -/
def ServerCall.Spends (c : ServerCall) (index : String) : Prop :=
  ∃ request : LoginRequest, c.request = .login request ∧ request.i = index ∧ request.i ≠ ""
    ∧ request.d ≠ ""

namespace LoginServer

/-- The call is answered with the index of the record, and the record is kept. -/
def Issues (server : LoginServer) (s : ServerState) (c : ServerCall) (record : PreKeyRecord) :
    Prop :=
  ∃ identifier request response rest, c.request = .issue identifier request
    ∧ response.i = record.index
    ∧ server.issuePreKey c.now.tick identifier request s c.entropy
      = ((.ok response, ⟨s.preKeys.put record c.now.tick server.lifetimes.preKey, s.sessions⟩),
        rest)

/-- The call is answered with the index. -/
def IssuesIndex (server : LoginServer) (s : ServerState) (c : ServerCall) (index : String) : Prop :=
  ∃ identifier request response, c.request = .issue identifier request
    ∧ (server.issuePreKey c.now.tick identifier request s c.entropy).1.1 = .ok response
    ∧ response.i = index

/-- The call issues the index or takes what is kept under it. -/
def Touches (server : LoginServer) (s : ServerState) (c : ServerCall) (index : String) : Prop :=
  server.IssuesIndex s c index ∨ c.Spends index

/-- The call is a login that succeeds, and the session is kept. -/
def Admits (server : LoginServer) (s : ServerState) (c : ServerCall) (session : SessionRecord) :
    Prop :=
  ∃ request response rest, c.request = .login request
    ∧ server.login c.now request s c.entropy
      = ((.ok response, ⟨s.preKeys.erase request.i,
          s.sessions.put session c.now.tick server.lifetimes.session⟩), rest)

/-- The call is a login that succeeds and issues the token. -/
def Opens (server : LoginServer) (s : ServerState) (c : ServerCall) (token : String) : Prop :=
  ∃ session, server.Admits s c session ∧ session.token = token

/-- The call resolves the token to a session. -/
def Resolves (server : LoginServer) (s : ServerState) (c : ServerCall) (token : String) : Prop :=
  c.request = .resolve token
    ∧ ∃ session, (server.resolve c.now.tick token s c.entropy).1.1 = .ok session

/-- The call is a logout with the token that succeeds. -/
def Ends (s : ServerState) (c : ServerCall) (token : String) : Prop :=
  c.request = .logout token ∧ (logout c.now.tick token s c.entropy).1.1 = .ok ()

/-- The call does something with the session of the token. A call that fails does not, nor does a
purge, or a call that issues or names another token. -/
def Concerns (server : LoginServer) (s : ServerState) (c : ServerCall) (token : String) : Prop :=
  server.Opens s c token ∨ server.Resolves s c token ∨ Ends s c token

variable {server : LoginServer} {s : ServerState} {c : ServerCall} {later : Tick}

/-! ### Issuing and spending -/

section PreKeys

variable {left : Entropy} {index key : String} {record record' : PreKeyRecord}
  {e : Expiring PreKeyRecord}

theorem Issues.exists_request (h : server.Issues s c record) : ∃ identifier request,
    c.request = .issue identifier request ∧ record.index = indexHead ++ identifier
      ∧ VerifyingKey.ofHex request.a0 = .ok record.clientSigningKey := by
  obtain ⟨identifier, request, response, rest, hc, -, hissue⟩ := h
  obtain ⟨client, put, hkeys, hanswer, hstate⟩ := issuePreKey_eq_ok_iff.1 hissue
  obtain ⟨-, ⟨keys, -, hput⟩, -⟩ := answerPreKey_eq_ok_iff.1 hanswer
  have hstore : s.preKeys.put record _ _ = s.preKeys.put put _ _ :=
    congrArg ServerState.preKeys hstate
  obtain rfl : record = put := congrArg Expiring.value (ExpiringTable.eq_of_insert_eq hstore)
  obtain ⟨-, -, -, hsigning, -, -⟩ := PreKeyRequest.keys_eq_ok_iff.1 hkeys
  rw [hput]
  exact ⟨identifier, request, hc, rfl, hsigning⟩

theorem Issues.after_eq (h : server.Issues s c record) : server.after s c
    = ⟨s.preKeys.put record c.now.tick server.lifetimes.preKey, s.sessions⟩ := by
  obtain ⟨identifier, request, response, rest, hc, -, hissue⟩ := h
  rw [after, hc]
  dsimp only
  rw [hissue]

/-- Who decides about credentials has no say in what is issued. -/
theorem Issues.of_lifetimes {server' : LoginServer} (h : server.Issues s c record)
    (hlifetimes : server'.lifetimes = server.lifetimes) : server'.Issues s c record := by
  obtain ⟨identifier, request, response, rest, hc, hresponse, hissue⟩ := h
  rw [← issuePreKey_of_lifetimes hlifetimes, ← hlifetimes] at hissue
  exact ⟨identifier, request, response, rest, hc, hresponse, hissue⟩

theorem Issues.unique (h : server.Issues s c record) (h' : server.Issues s c record') :
    record = record' := by
  have hstore : s.preKeys.put record _ _ = s.preKeys.put record' _ _ :=
    congrArg ServerState.preKeys (h.after_eq.symm.trans h'.after_eq)
  exact congrArg Expiring.value (ExpiringTable.eq_of_insert_eq hstore)

theorem issuesIndex_iff :
    server.IssuesIndex s c index ↔ ∃ record, server.Issues s c record ∧ record.index = index := by
  constructor
  · rintro ⟨identifier, request, response, hc, hresponse, rfl⟩
    rcases h : server.issuePreKey c.now.tick identifier request s c.entropy with
      ⟨⟨e | answer, after⟩, rest⟩
    · rw [h] at hresponse
      cases hresponse
    · rw [h] at hresponse
      cases hresponse
      obtain ⟨client, record, -, hanswer, rfl⟩ := issuePreKey_eq_ok_iff.1 h
      obtain ⟨-, ⟨keys, -, hrecord⟩, hresponse, -⟩ := answerPreKey_eq_ok_iff.1 hanswer
      have hindex : response.i = record.index := by rw [hrecord, hresponse]; rfl
      exact ⟨record, ⟨identifier, request, response, rest, hc, hindex, h⟩, hindex.symm⟩
  · rintro ⟨record, ⟨identifier, request, response, rest, hc, hindex, h⟩, rfl⟩
    exact ⟨identifier, request, response, hc, by rw [h], hindex⟩

theorem Issues.issuesIndex (h : server.Issues s c record) : server.IssuesIndex s c record.index :=
  issuesIndex_iff.2 ⟨record, h, rfl⟩

theorem Issues.not_spends (h : server.Issues s c record) (index : String) : ¬c.Spends index := by
  obtain ⟨identifier, request, hc, -⟩ := h.exists_request
  rintro ⟨_, hc', -⟩
  cases hc.symm.trans hc'

theorem touches_iff_of_issues (h : server.Issues s c record) :
    server.Touches s c index ↔ record.index = index := by
  constructor
  · rintro (hissues | hspends)
    · obtain ⟨record', h', rfl⟩ := issuesIndex_iff.1 hissues
      rw [h.unique h']
    · exact absurd hspends (h.not_spends index)
  · rintro rfl
    exact .inl h.issuesIndex

theorem touches_iff_of_spends (h : c.Spends key) : server.Touches s c index ↔ key = index := by
  constructor
  · rintro (hissues | ⟨request', hc', rfl, -⟩)
    · obtain ⟨record, h', -⟩ := issuesIndex_iff.1 hissues
      exact absurd h (h'.not_spends key)
    · obtain ⟨request, hc, rfl, -⟩ := h
      cases hc.symm.trans hc'
      rfl
  · rintro rfl
    exact .inr h

theorem usesIndex_of_touches (h : server.Touches s c index) : c.UsesIndex index := by
  unfold ServerCall.UsesIndex
  rcases h with hissues | ⟨request, hc, rfl, -⟩
  · obtain ⟨record, hrecord, rfl⟩ := issuesIndex_iff.1 hissues
    obtain ⟨identifier, request, hc, hindex, -⟩ := hrecord.exists_request
    rw [hc]
    exact hindex.symm
  · rw [hc]

theorem not_touches_of_ne (hissue : ∀ identifier request, c.request ≠ .issue identifier request)
    (hlogin : ∀ request, c.request ≠ .login request) (index : String) :
    ¬server.Touches s c index := by
  rintro (⟨identifier, request, _, hc, -⟩ | ⟨request, hc, -⟩)
  · exact hissue identifier request hc
  · exact hlogin request hc

/-- What a call does to the pre-keys. -/
inductive PreKeyEffect (server : LoginServer) (s : ServerState) (c : ServerCall) : Prop where
  | put {record : PreKeyRecord} (issues : server.Issues s c record)
      (store : (server.after s c).preKeys
        = s.preKeys.put record c.now.tick server.lifetimes.preKey)
  | erase {index : String} (spends : c.Spends index)
      (store : (server.after s c).preKeys = s.preKeys.erase index)
  | keep (touches : ∀ index, ¬server.Touches s c index)
      (store : (server.after s c).preKeys = s.preKeys)
  | purge (touches : ∀ index, ¬server.Touches s c index)
      (store : (server.after s c).preKeys = s.preKeys.purge c.now.tick)

theorem preKeys_of_login {moment : Moment} {request : LoginRequest} (hi : request.i ≠ "")
    (hd : request.d ≠ "") :
    (server.login moment request s left).1.2.preKeys = s.preKeys.erase request.i := by
  rw [login_apply hi hd]
  cases s.preKeys.live? request.i moment.tick with
  | none => rfl
  | some record =>
    dsimp only
    rcases h : server.answerLogin moment request.d record ⟨s.preKeys.erase request.i, s.sessions⟩
      left with ⟨⟨e | response, after⟩, rest⟩
    · rw [state_of_answerLogin_eq_error h]
    · obtain ⟨_, _, -, -, rfl⟩ := answerLogin_eq_ok_iff.1 h
      rfl

theorem preKeyEffect_issue (server : LoginServer) (s : ServerState) (identifier : String)
    (request : PreKeyRequest) (now : Moment) (entropy : Entropy) :
    server.PreKeyEffect s ⟨.issue identifier request, now, entropy⟩ := by
  by_cases hissued : ∃ index, server.IssuesIndex s ⟨.issue identifier request, now, entropy⟩ index
  · obtain ⟨index, hissues⟩ := hissued
    obtain ⟨record, hrecord, -⟩ := issuesIndex_iff.1 hissues
    exact .put hrecord (congrArg ServerState.preKeys hrecord.after_eq)
  · refine .keep (fun index => ?_) ?_
    · rintro (hissues | ⟨_, hc, -⟩)
      · exact hissued ⟨index, hissues⟩
      · cases hc
    · show (server.issuePreKey now.tick identifier request s entropy).1.2.preKeys = _
      rcases h : server.issuePreKey now.tick identifier request s entropy with
        ⟨⟨e | response, after⟩, rest⟩
      · rw [state_of_issuePreKey_eq_error h]
      · exact absurd ⟨response.i, identifier, request, response, rfl, by rw [h], rfl⟩ hissued

theorem preKeyEffect_login (server : LoginServer) (s : ServerState) (request : LoginRequest)
    (now : Moment) (entropy : Entropy) :
    server.PreKeyEffect s ⟨.login request, now, entropy⟩ := by
  by_cases hmissing : request.i = "" ∨ request.d = ""
  · refine .keep (fun index => ?_) ?_
    · rintro (⟨_, _, _, hc, -⟩ | ⟨_, hc, -, hi, hd⟩)
      · cases hc
      · cases hc
        exact hmissing.elim hi hd
    · show (server.login now request s entropy).1.2.preKeys = _
      rw [state_of_login_of_missing hmissing]
  · obtain ⟨hi, hd⟩ := not_or.1 hmissing
    exact .erase ⟨request, rfl, rfl, hi, hd⟩ (preKeys_of_login hi hd)

theorem preKeyEffect (server : LoginServer) (s : ServerState) (c : ServerCall) :
    server.PreKeyEffect s c := by
  obtain ⟨request, moment, entropy⟩ := c
  cases request with
  | issue identifier request => exact server.preKeyEffect_issue s identifier request moment entropy
  | login request => exact server.preKeyEffect_login s request moment entropy
  | logout token =>
    refine .keep (not_touches_of_ne nofun nofun) ?_
    show (logout moment.tick token s entropy).1.2.preKeys = _
    rcases state_of_logout moment.tick token s entropy with h | h <;> rw [h]
  | resolve token =>
    refine .keep (not_touches_of_ne nofun nofun) ?_
    show (server.resolve moment.tick token s entropy).1.2.preKeys = _
    rcases state_of_resolve server moment.tick token s entropy with h | ⟨e, h⟩ <;> rw [h]
  | purge => exact .purge (not_touches_of_ne nofun nofun) rfl

/-- A call puts no pre-key into the store but the one it issues, and takes the one it spends out. -/
theorem mem_preKeys_after (h : (key, e) ∈ (server.after s c).preKeys.entries) :
    (∃ record, server.Issues s c record ∧ key = record.index
      ∧ e = .start record c.now.tick server.lifetimes.preKey)
      ∨ ¬server.Touches s c key ∧ (key, e) ∈ s.preKeys.entries := by
  cases preKeyEffect server s c with
  | @put record issues store =>
    rw [store] at h
    rcases ExpiringTable.mem_entries_insert_iff.1 h with ⟨rfl, rfl⟩ | ⟨hne, hold⟩
    · exact .inl ⟨record, issues, rfl, rfl⟩
    · exact .inr ⟨fun htouches => hne ((touches_iff_of_issues issues).1 htouches).symm, hold⟩
  | erase spends store =>
    rw [store] at h
    obtain ⟨hne, hold⟩ := ExpiringTable.mem_entries_erase_iff.1 h
    exact .inr ⟨fun htouches => hne ((touches_iff_of_spends spends).1 htouches).symm, hold⟩
  | keep touches store =>
    rw [store] at h
    exact .inr ⟨touches key, h⟩
  | purge touches store =>
    rw [store] at h
    exact .inr ⟨touches key, ExpiringTable.mem_entries_of_purge h⟩

theorem lookup_preKeys_of_issues (h : server.Issues s c record) :
    (server.after s c).preKeys.lookup record.index
      = some (.start record c.now.tick server.lifetimes.preKey) := by
  rw [h.after_eq]
  exact ExpiringTable.lookup_insert_self ..

/-- What is live under an index stays under a call that does not touch the index. -/
theorem lookup_preKeys_after (h : s.preKeys.lookup key = some e)
    (hlive : e.isLive c.now.tick = true)
    (hnone : ¬server.Touches s c key) : (server.after s c).preKeys.lookup key = some e := by
  cases preKeyEffect server s c with
  | put issues store =>
    rw [store, PreKeyStore.put, ExpiringTable.lookup_insert_of_ne]
    · exact h
    · rintro rfl
      exact hnone ((touches_iff_of_issues issues).2 rfl)
  | erase spends store =>
    rw [store, ExpiringTable.lookup_erase_of_ne]
    · exact h
    · rintro rfl
      exact hnone ((touches_iff_of_spends spends).2 rfl)
  | keep _ store =>
    rw [store]
    exact h
  | purge _ store =>
    rw [store]
    exact ExpiringTable.lookup_purge_of_isLive h hlive

/-- A pre-key stays live under a call that is about another index. -/
theorem live_preKey_after (h : s.preKeys.live? index later = some record)
    (hle : c.now.tick ≤ later) (hother : ¬c.UsesIndex index) :
    (server.after s c).preKeys.live? index later = some record := by
  obtain ⟨e, hlookup, hlive, rfl⟩ := ExpiringTable.live?_eq_some_iff.1 h
  have hnone : ¬server.Touches s c index := mt usesIndex_of_touches hother
  have hkept := lookup_preKeys_after hlookup (Expiring.isLive_of_le hlive hle) hnone
  exact ExpiringTable.live?_eq_some_iff.2 ⟨e, hkept, hlive, rfl⟩

theorem live_preKey_run {calls : List ServerCall} (h : s.preKeys.live? index later = some record)
    (hcalls : ∀ c ∈ calls, c.now.tick ≤ later ∧ ¬c.UsesIndex index) :
    (server.run s calls).preKeys.live? index later = some record := by
  induction calls generalizing s with
  | nil => exact h
  | cons c calls ih =>
    obtain ⟨hle, hother⟩ := hcalls c (.head _)
    exact ih (live_preKey_after h hle hother) fun c' hc' => hcalls c' (.tail _ hc')

end PreKeys

/-! ### Admitting, resolving and ending -/

section Sessions

variable {token key : String} {session session' : SessionRecord} {e : Expiring SessionRecord}

theorem Admits.exists_record {request : LoginRequest} (h : server.Admits s c session)
    (hc : c.request = .login request) : request.i ≠ "" ∧ request.d ≠ ""
      ∧ session.token = freshToken c.entropy ∧ session.issuedAt = c.now.wall
      ∧ ∃ record, s.preKeys.live? request.i c.now.tick = some record
        ∧ server.readLogin c.now.wall record request.d = .ok session.user := by
  obtain ⟨request', response, rest, hc', hlogin⟩ := h
  cases hc.symm.trans hc'
  obtain ⟨hi, hd, record, user, put, hlive, huser, hopen, hstate⟩ := login_eq_ok_iff.1 hlogin
  obtain ⟨-, hput, -⟩ := openSession_eq_ok_iff.1 hopen
  have hstore : s.sessions.put session _ _ = s.sessions.put put _ _ :=
    congrArg ServerState.sessions hstate
  obtain rfl : session = put := congrArg Expiring.value (ExpiringTable.eq_of_insert_eq hstore)
  rw [hput]
  exact ⟨hi, hd, rfl, rfl, record, hlive, huser⟩

theorem Admits.exists_after_eq (h : server.Admits s c session) : ∃ index, server.after s c
    = ⟨s.preKeys.erase index, s.sessions.put session c.now.tick server.lifetimes.session⟩ := by
  obtain ⟨request, response, rest, hc, hlogin⟩ := h
  refine ⟨request.i, ?_⟩
  rw [after, hc]
  dsimp only
  rw [hlogin]

theorem Admits.unique (h : server.Admits s c session) (h' : server.Admits s c session') :
    session = session' := by
  obtain ⟨_, hafter⟩ := h.exists_after_eq
  obtain ⟨_, hafter'⟩ := h'.exists_after_eq
  have hstore : s.sessions.put session _ _ = s.sessions.put session' _ _ :=
    congrArg ServerState.sessions (hafter.symm.trans hafter')
  exact congrArg Expiring.value (ExpiringTable.eq_of_insert_eq hstore)

theorem concerns_iff_of_admits (h : server.Admits s c session) :
    server.Concerns s c token ↔ session.token = token := by
  constructor
  · rintro (⟨session', h', rfl⟩ | ⟨hc, -⟩ | ⟨hc, -⟩)
    · rw [h.unique h']
    · obtain ⟨_, _, _, hc', -⟩ := h
      cases hc.symm.trans hc'
    · obtain ⟨_, _, _, hc', -⟩ := h
      cases hc.symm.trans hc'
  · rintro rfl
    exact .inl ⟨session, h, rfl⟩

theorem eq_of_concerns_of_resolve (hc : c.request = .resolve token)
    (h : server.Concerns s c key) : token = key := by
  rcases h with ⟨_, ⟨_, _, _, hc', -⟩, -⟩ | ⟨hc', -⟩ | ⟨hc', -⟩ <;> cases hc.symm.trans hc'
  rfl

theorem eq_of_concerns_of_logout (hc : c.request = .logout token)
    (h : server.Concerns s c key) : token = key := by
  rcases h with ⟨_, ⟨_, _, _, hc', -⟩, -⟩ | ⟨hc', -⟩ | ⟨hc', -⟩ <;> cases hc.symm.trans hc'
  rfl

theorem usesToken_of_concerns (h : server.Concerns s c token) : c.UsesToken token := by
  unfold ServerCall.UsesToken
  rcases h with ⟨session, hadmits, rfl⟩ | ⟨hc, -⟩ | ⟨hc, -⟩
  · obtain ⟨request, _, _, hc, -⟩ := id hadmits
    obtain ⟨-, -, htoken, -⟩ := hadmits.exists_record hc
    rw [hc]
    exact htoken.symm
  · rw [hc]
  · rw [hc]

theorem not_concerns_of_ne (hlogin : ∀ request, c.request ≠ .login request)
    (hresolve : ∀ token, c.request ≠ .resolve token) (hlogout : ∀ token, c.request ≠ .logout token)
    (token : String) : ¬server.Concerns s c token := by
  rintro (⟨_, ⟨request, _, _, hc, -⟩, -⟩ | ⟨hc, -⟩ | ⟨hc, -⟩)
  · exact hlogin request hc
  · exact hresolve token hc
  · exact hlogout token hc

/-- What a call does to the sessions. -/
inductive SessionEffect (server : LoginServer) (s : ServerState) (c : ServerCall) : Prop where
  | put {session : SessionRecord} (admits : server.Admits s c session)
      (store : (server.after s c).sessions
        = s.sessions.put session c.now.tick server.lifetimes.session)
  | renew {token : String} {e : Expiring SessionRecord} (resolves : server.Resolves s c token)
      (lookup : s.sessions.lookup token = some e)
      (store : (server.after s c).sessions
        = s.sessions.insert token (e.renew c.now.tick server.lifetimes.session))
  | erase {token : String} (logout : c.request = .logout token)
      (ends : (s.sessions.live? token c.now.tick).isSome → Ends s c token)
      (store : (server.after s c).sessions = s.sessions.erase token)
  | keep (concerns : ∀ token, ¬server.Concerns s c token)
      (store : (server.after s c).sessions = s.sessions)
  | purge (concerns : ∀ token, ¬server.Concerns s c token)
      (store : (server.after s c).sessions = s.sessions.purge c.now.tick)

theorem sessionEffect_login (server : LoginServer) (s : ServerState) (request : LoginRequest)
    (moment : Moment) (entropy : Entropy) :
    server.SessionEffect s ⟨.login request, moment, entropy⟩ := by
  rcases h : server.login moment request s entropy with ⟨⟨e | response, after⟩, rest⟩
  · refine .keep ?_ ?_
    · rintro token (⟨_, ⟨_, _, _, hc, hlogin⟩, -⟩ | ⟨hc, -⟩ | ⟨hc, -⟩) <;> cases hc
      cases h.symm.trans hlogin
    · show (server.login moment request s entropy).1.2.sessions = _
      rw [h]
      rcases state_of_login_eq_error h with rfl | rfl <;> rfl
  · obtain ⟨-, -, _, _, session, -, -, -, rfl⟩ := login_eq_ok_iff.1 h
    refine @SessionEffect.put _ _ _ session ⟨request, response, rest, rfl, h⟩ ?_
    show (server.login moment request s entropy).1.2.sessions = _
    rw [h]

theorem sessionEffect_logout (server : LoginServer) (s : ServerState) (token : String)
    (moment : Moment) (entropy : Entropy) :
    server.SessionEffect s ⟨.logout token, moment, entropy⟩ := by
  by_cases htoken : token = ""
  · subst htoken
    refine .keep ?_ rfl
    rintro token (⟨_, ⟨_, _, _, hc, -⟩, -⟩ | ⟨hc, -⟩ | ⟨hc, hends⟩) <;> cases hc
    cases hends
  · -- The entry leaves the store also if it has expired, and then the logout fails.
    have happly := @logout_apply s entropy moment.tick token htoken
    refine .erase rfl (fun hlive => ⟨rfl, ?_⟩) ?_
    · dsimp only at hlive ⊢
      rw [happly, if_pos hlive]
    · show (logout moment.tick token s entropy).1.2.sessions = _
      rw [happly]

theorem sessionEffect_resolve (server : LoginServer) (s : ServerState) (token : String)
    (moment : Moment) (entropy : Entropy) :
    server.SessionEffect s ⟨.resolve token, moment, entropy⟩ := by
  by_cases htoken : token = ""
  · subst htoken
    refine .keep ?_ rfl
    rintro token (⟨_, ⟨_, _, _, hc, -⟩, -⟩ | ⟨hc, _, hresolves⟩ | ⟨hc, -⟩) <;> cases hc
    cases hresolves
  · have happly := @resolve_apply server s entropy moment.tick token htoken
    cases hfound : (s.sessions.lookup token).filter (·.isLive moment.tick) with
    | none =>
      rw [hfound] at happly
      refine .keep ?_ ?_
      · rintro token (⟨_, ⟨_, _, _, hc, -⟩, -⟩ | ⟨hc, _, hresolves⟩ | ⟨hc, -⟩) <;> cases hc
        dsimp only at hresolves
        rw [happly] at hresolves
        cases hresolves
      · show (server.resolve moment.tick token s entropy).1.2.sessions = _
        rw [happly]
    | some e =>
      rw [hfound] at happly
      refine @SessionEffect.renew _ _ _ token e ⟨rfl, e.value, ?_⟩ ?_ ?_
      · dsimp only
        rw [happly]
      · exact (Option.filter_eq_some_iff.1 hfound).1
      · show (server.resolve moment.tick token s entropy).1.2.sessions = _
        rw [happly]

theorem sessionEffect (server : LoginServer) (s : ServerState) (c : ServerCall) :
    server.SessionEffect s c := by
  obtain ⟨request, moment, entropy⟩ := c
  cases request with
  | issue identifier request =>
    refine .keep (not_concerns_of_ne nofun nofun nofun) ?_
    show (server.issuePreKey moment.tick identifier request s entropy).1.2.sessions = _
    rcases state_of_issuePreKey server moment.tick identifier request s entropy with h | ⟨_, h⟩
      <;> rw [h]
  | login request => exact sessionEffect_login server s request moment entropy
  | logout token => exact sessionEffect_logout server s token moment entropy
  | resolve token => exact sessionEffect_resolve server s token moment entropy
  | purge => exact .purge (not_concerns_of_ne nofun nofun nofun) rfl

/-- What a call leaves under a token is the session it has opened, the session it has renewed, or
what was there before. -/
theorem mem_sessions_after (h : (key, e) ∈ (server.after s c).sessions.entries) :
    (∃ session, server.Admits s c session ∧ key = session.token
      ∧ e = .start session c.now.tick server.lifetimes.session)
      ∨ server.Resolves s c key ∧ (∃ earlier, (key, earlier) ∈ s.sessions.entries
        ∧ e = earlier.renew c.now.tick server.lifetimes.session)
      ∨ ¬server.Concerns s c key ∧ (key, e) ∈ s.sessions.entries := by
  cases sessionEffect server s c with
  | @put session admits store =>
    rw [store] at h
    rcases ExpiringTable.mem_entries_insert_iff.1 h with ⟨rfl, rfl⟩ | ⟨hne, hold⟩
    · exact .inl ⟨session, admits, rfl, rfl⟩
    · refine .inr (.inr ⟨fun hconcerns => hne ?_, hold⟩)
      exact ((concerns_iff_of_admits admits).1 hconcerns).symm
  | @renew token earlier resolves lookup store =>
    rw [store] at h
    rcases ExpiringTable.mem_entries_insert_iff.1 h with ⟨rfl, rfl⟩ | ⟨hne, hold⟩
    · exact .inr (.inl ⟨resolves, earlier, ExpiringTable.mem_entries_of_lookup lookup, rfl⟩)
    · refine .inr (.inr ⟨fun hconcerns => hne ?_, hold⟩)
      exact (eq_of_concerns_of_resolve resolves.1 hconcerns).symm
  | erase logout _ store =>
    rw [store] at h
    obtain ⟨hne, hold⟩ := ExpiringTable.mem_entries_erase_iff.1 h
    exact .inr (.inr ⟨fun hconcerns => hne (eq_of_concerns_of_logout logout hconcerns).symm, hold⟩)
  | keep concerns store =>
    rw [store] at h
    exact .inr (.inr ⟨concerns key, h⟩)
  | purge concerns store =>
    rw [store] at h
    exact .inr (.inr ⟨concerns key, ExpiringTable.mem_entries_of_purge h⟩)

theorem lookup_sessions_of_admits (h : server.Admits s c session) :
    (server.after s c).sessions.lookup session.token
      = some (.start session c.now.tick server.lifetimes.session) := by
  obtain ⟨index, hafter⟩ := h.exists_after_eq
  rw [hafter]
  exact ExpiringTable.lookup_insert_self ..

theorem lookup_sessions_of_resolves (h : server.Resolves s c token) :
    ∃ e, (token, e) ∈ s.sessions.entries ∧ (server.after s c).sessions.lookup token
      = some (e.renew c.now.tick server.lifetimes.session) := by
  cases sessionEffect server s c with
  | put admits _ =>
    obtain ⟨_, _, _, hc, -⟩ := admits
    cases hc.symm.trans h.1
  | @renew token' e resolves lookup store =>
    obtain rfl := eq_of_concerns_of_resolve resolves.1 (.inr (.inl h))
    rw [store]
    exact ⟨e, ExpiringTable.mem_entries_of_lookup lookup, ExpiringTable.lookup_insert_self ..⟩
  | erase logout _ _ => cases logout.symm.trans h.1
  | keep concerns _ => exact absurd (.inr (.inl h)) (concerns token)
  | purge concerns _ => exact absurd (.inr (.inl h)) (concerns token)

/-- What is live under a token stays under a call that does not concern it. -/
theorem lookup_sessions_after (h : s.sessions.lookup token = some e)
    (hlive : e.isLive c.now.tick = true) (hnone : ¬server.Concerns s c token) :
    (server.after s c).sessions.lookup token = some e := by
  cases sessionEffect server s c with
  | put admits store =>
    rw [store, SessionStore.put, ExpiringTable.lookup_insert_of_ne]
    · exact h
    · rintro rfl
      exact hnone ((concerns_iff_of_admits admits).2 rfl)
  | renew resolves _ store =>
    rw [store, ExpiringTable.lookup_insert_of_ne]
    · exact h
    · rintro rfl
      exact hnone (.inr (.inl resolves))
  | erase _ ends store =>
    rw [store, ExpiringTable.lookup_erase_of_ne]
    · exact h
    · rintro rfl
      -- The logout finds the session, which is live, so that it succeeds.
      have hfound := ExpiringTable.live?_eq_some_iff.2 ⟨e, h, hlive, rfl⟩
      exact hnone (.inr (.inr (ends (by rw [hfound]; rfl))))
  | keep _ store =>
    rw [store]
    exact h
  | purge _ store =>
    rw [store]
    exact ExpiringTable.lookup_purge_of_isLive h hlive

/-- A session stays live under a call that is about another token. -/
theorem live_session_after (h : s.sessions.live? token later = some session)
    (hle : c.now.tick ≤ later) (hother : ¬c.UsesToken token) :
    (server.after s c).sessions.live? token later = some session := by
  obtain ⟨e, hlookup, hlive, rfl⟩ := ExpiringTable.live?_eq_some_iff.1 h
  have hnone : ¬server.Concerns s c token := mt usesToken_of_concerns hother
  have hkept := lookup_sessions_after hlookup (Expiring.isLive_of_le hlive hle) hnone
  exact ExpiringTable.live?_eq_some_iff.2 ⟨e, hkept, hlive, rfl⟩

theorem live_session_run {calls : List ServerCall} (h : s.sessions.live? token later = some session)
    (hcalls : ∀ c ∈ calls, c.now.tick ≤ later ∧ ¬c.UsesToken token) :
    (server.run s calls).sessions.live? token later = some session := by
  induction calls generalizing s with
  | nil => exact h
  | cons c calls ih =>
    obtain ⟨hle, hother⟩ := hcalls c (.head _)
    exact ih (live_session_after h hle hother) fun c' hc' => hcalls c' (.tail _ hc')

end Sessions

end LoginServer

end SealedLogin
