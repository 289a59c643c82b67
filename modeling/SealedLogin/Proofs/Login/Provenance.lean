import SealedLogin.Proofs.Login.PreKeyLifecycle
import SealedLogin.Proofs.Login.SessionLifetime

/-!
# Where sessions come from

Each pre-key in the store of a server goes back to a request for it, and each session to a login
whose envelope opened under such a pre-key and carried credentials that the authenticator took for
those of the user (`Origin`). That the envelope verified under the key of that request is part of
what opening it means; who made the signature is not asked here.
-/

namespace SealedLogin

namespace LoginServer

variable {server : LoginServer} {calls before before' : List ServerCall} {c c' : ServerCall}
  {record record' : PreKeyRecord} {session session' : SessionRecord}
  {request request' : LoginRequest}

/-- The call of the run is the login that the session comes from: it named the index of a record
that had been issued before, and its envelope opened, at the time of the call, to credentials that
the authenticator accepted as those of the user of the session. -/
structure Origin (server : LoginServer) (calls : List ServerCall) (session : SessionRecord)
    (before : List ServerCall) (c : ServerCall) (request : LoginRequest) (record : PreKeyRecord) :
    Prop where
  came : Came calls before c
  login : c.request = .login request
  admits : server.Admits (server.run .empty before) c session
  stamped : session.issuedAt = c.now.wall
  issued : ∃ b d, Came before b d ∧ server.Issues (server.run .empty b) d record
  index : record.index = request.i
  opens : ∃ payloads attempt, Envelope.unpack c.now.wall record.index record.clientSigningKey
      record.keys.clientToServer server.lifetimes.envelope request.d = .ok payloads
    ∧ LoginAttempt.ofPayloads payloads = .ok attempt
    ∧ server.authenticate attempt = .ok (some session.user)

theorem Admits.exists_origin (hcame : Came calls before c)
    (h : server.Admits (server.run .empty before) c session) :
    ∃ request record, server.Origin calls session before c request record := by
  obtain ⟨request, _, _, hc, -⟩ := id h
  obtain ⟨-, -, -, hstamped, record, hlive, huser⟩ := h.exists_record hc
  obtain ⟨hindex, -, b, d, hlatest, hissues, -⟩ := exists_waits_of_live hlive
  exact ⟨request, record, hcame, hc, h, hstamped, ⟨b, d, hlatest.came, hissues⟩, hindex.symm,
    readLogin_eq_ok_iff.1 huser⟩

theorem Origin.examines (h : server.Origin calls session before c request record) :
    Examines (server.run .empty before) c request.i := by
  obtain ⟨hi, hd, -, -, record, hlive, -⟩ := h.admits.exists_record h.login
  exact ⟨⟨request, h.login, rfl, hi, hd⟩, record, hlive⟩

/-- If no index is issued twice, an index brings about one session at most. -/
theorem Origin.unique (hdistinct : server.IndicesDistinct calls)
    (h : server.Origin calls session before c request record)
    (h' : server.Origin calls session' before' c' request' record')
    (hindex : request.i = request'.i) : session = session' := by
  have hexamines := h'.examines
  rw [← hindex] at hexamines
  obtain rfl := examines_unique hdistinct h.came h'.came h.examines hexamines
  obtain rfl := h.came.unique h'.came
  exact h.admits.unique h'.admits

/-- A session in the store, expired or not, is under its own token and comes from a login. -/
theorem exists_origin_of_contains {token : String}
    (h : (server.run .empty calls).sessions.Contains token session) : token = session.token
      ∧ ∃ before c request record, server.Origin calls session before c request record := by
  obtain ⟨e, hmem, rfl⟩ := h
  obtain ⟨session, _, ⟨before, c, hlatest, hadmits, -⟩, -, rfl, rfl⟩ := exists_opened_of_mem hmem
  obtain ⟨request, record, horigin⟩ := hadmits.exists_origin hlatest.came
  exact ⟨rfl, before, c, request, record, horigin⟩

/-! ### The outcome -/

/-- Whatever calls a server has had, each session in its store, expired or not, is under its own
token and comes from a login; each pre-key is under its own index and has the key that was asked for
it with. If no index was issued twice, two sessions come from logins with two indices. -/
theorem session_provenance (server : LoginServer) (calls : List ServerCall) :
    (∀ token session, (server.run .empty calls).sessions.Contains token session →
      token = session.token
        ∧ ∃ before c request record, server.Origin calls session before c request record)
    ∧ (∀ index record, (server.run .empty calls).preKeys.Contains index record →
      index = record.index ∧ ∃ before c identifier request, Came calls before c
        ∧ c.request = .issue identifier request
        ∧ server.Issues (server.run .empty before) c record
        ∧ VerifyingKey.ofHex request.a0 = .ok record.clientSigningKey)
    ∧ (server.IndicesDistinct calls →
      ∀ session before c request record session' before' c' request' record',
        server.Origin calls session before c request record →
        server.Origin calls session' before' c' request' record' →
        session ≠ session' → request.i ≠ request'.i) := by
  refine ⟨fun _ _ => exists_origin_of_contains, ?_, ?_⟩
  · rintro index record ⟨e, hmem, rfl⟩
    obtain ⟨record, issued, ⟨before, c, hlatest, hissues, -⟩, rfl, rfl⟩ := exists_waits_of_mem hmem
    obtain ⟨identifier, request, hc, -, hsigning⟩ := hissues.exists_request
    exact ⟨rfl, before, c, identifier, request, hlatest.came, hc, hissues, hsigning⟩
  · intro hdistinct session before c request record session' before' c' request' record' h h' hne
    exact fun hindex => hne (h.unique hdistinct h' hindex)

end LoginServer

/-- The session that was opened after the leap second is in the store and comes from its login. -/
theorem Encounter.session_provenance_leap : ∃ calls : List ServerCall,
    (leap.server.run .empty calls).sessions.Contains leap.token (leap.record ⟨"user", none⟩)
      ∧ ∃ before c request record,
        leap.server.Origin calls (leap.record ⟨"user", none⟩) before c request record := by
  obtain ⟨envelope, hadmits⟩ := exists_admits_loginCall honest_leap
  have hlookup := LoginServer.lookup_sessions_of_admits hadmits
  rw [← LoginServer.run_concat] at hlookup
  have hstored : (leap.server.run .empty (leap.issueCall :: leap.between
      ++ [leap.loginCall envelope])).sessions.Contains leap.token (leap.record ⟨"user", none⟩) :=
    ⟨_, ExpiringTable.mem_entries_of_lookup hlookup, rfl⟩
  exact ⟨_, hstored, ((LoginServer.session_provenance leap.server _).1 _ _ hstored).2⟩

end SealedLogin
