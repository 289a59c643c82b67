import SealedLogin.Proofs.Login.Steps
import SealedLogin.Proofs.Store.Tables

/-!
# Calls one after another

A server is called by many clients, each call at its own moment and with its own random bytes
(`ServerCall`, `LoginServer.run`). What a single call leaves in the stores is told by the lemmas
`state_of_issuePreKey` to `state_of_resolve`, and what comes of a token by `result_of_resolve` and
`result_of_logout`.
-/

namespace SealedLogin

/-- What a client or the operator asks of a server. -/
inductive ServerRequest where
  | issue (identifier : String) (request : PreKeyRequest)
  | login (request : LoginRequest)
  | logout (token : String)
  | resolve (token : String)
  | purge

/-- A call at a moment, with the random bytes that are there for it. -/
structure ServerCall where
  request : ServerRequest
  now : Moment
  entropy : Entropy

namespace ServerCall

/-- The call is about an index: it issues it or logs in with it. -/
def UsesIndex (c : ServerCall) (index : String) : Prop :=
  match c.request with
  | .issue identifier _ => LoginServer.indexHead ++ identifier = index
  | .login request => request.i = index
  | .logout _ | .resolve _ | .purge => False

/-- The call is about a token: it draws it, or names it. -/
def UsesToken (c : ServerCall) (token : String) : Prop :=
  match c.request with
  | .login _ => LoginServer.freshToken c.entropy = token
  | .logout other | .resolve other => other = token
  | .issue _ _ | .purge => False

end ServerCall

namespace LoginServer

/-- What a server keeps after a call, whatever comes of it. -/
def after (server : LoginServer) (s : ServerState) (c : ServerCall) : ServerState :=
  match c.request with
  | .issue identifier request => (server.issuePreKey c.now.tick identifier request s c.entropy).1.2
  | .login request => (server.login c.now request s c.entropy).1.2
  | .logout token => (logout c.now.tick token s c.entropy).1.2
  | .resolve token => (server.resolve c.now.tick token s c.entropy).1.2
  | .purge => (purge c.now.tick s c.entropy).1.2

/-- What a server keeps after calls one after another. -/
def run (server : LoginServer) (s : ServerState) (calls : List ServerCall) : ServerState :=
  calls.foldl server.after s

variable {server : LoginServer} {s : ServerState} {left : Entropy} {now : Tick} {token : String}

/-! ### What single calls leave -/

theorem state_of_issuePreKey (server : LoginServer) (now : Tick) (identifier : String)
    (request : PreKeyRequest) (s : ServerState) (left : Entropy) :
    (server.issuePreKey now identifier request s left).1.2 = s ∨ ∃ record : PreKeyRecord,
      (server.issuePreKey now identifier request s left).1.2
        = ⟨s.preKeys.put record now server.lifetimes.preKey, s.sessions⟩ := by
  rcases h : server.issuePreKey now identifier request s left with ⟨⟨e | response, s'⟩, rest⟩
  · exact .inl (state_of_issuePreKey_eq_error h)
  · obtain ⟨_, record, -, -, rfl⟩ := issuePreKey_eq_ok_iff.1 h
    exact .inr ⟨record, rfl⟩

theorem state_of_login_of_missing {now : Moment} {request : LoginRequest}
    (h : request.i = "" ∨ request.d = "") : (server.login now request s left).1.2 = s := by
  obtain ⟨e, he⟩ := @login_of_missing server s left now request h
  rw [he]

theorem logout_apply (htoken : token ≠ "") : logout now token s left =
    ((if (s.sessions.live? token now).isSome then .ok () else .error .sessionNotFound,
      ⟨s.preKeys, s.sessions.erase token⟩), left) := by
  have hrequired := (requireParameter_eq_ok_iff.2 ⟨htoken, rfl⟩ : requireParameter _ "token" = _)
  rw [logout, hrequired, ServerStep.bind_apply, ServerStep.ofExcept_apply]
  dsimp only
  rw [ServerStep.bind_apply, ServerStep.onSessions_apply]
  dsimp only [SessionStore.invalidate, SessionStore.get]
  split <;> rfl

theorem state_of_logout (now : Tick) (token : String) (s : ServerState) (left : Entropy) :
    (logout now token s left).1.2 = s
      ∨ (logout now token s left).1.2 = ⟨s.preKeys, s.sessions.erase token⟩ := by
  by_cases htoken : token = ""
  · subst htoken
    exact .inl rfl
  · rw [logout_apply htoken]
    exact .inr rfl

theorem resolve_apply (htoken : token ≠ "") : server.resolve now token s left =
    match s.sessions.lookup token |>.filter (·.isLive now) with
    | none => ((.error .sessionNotFound, s), left)
    | some e => ((.ok e.value,
        ⟨s.preKeys, s.sessions.insert token (e.renew now server.lifetimes.session)⟩), left) := by
  have hrequired := (requireParameter_eq_ok_iff.2 ⟨htoken, rfl⟩ : requireParameter _ "token" = _)
  rw [resolve, hrequired, ServerStep.bind_apply, ServerStep.ofExcept_apply]
  dsimp only
  rw [ServerStep.bind_apply, ServerStep.onSessions_apply]
  dsimp only [SessionStore.touch]
  cases (s.sessions.lookup token).filter (·.isLive now) <;> rfl

theorem state_of_resolve (server : LoginServer) (now : Tick) (token : String) (s : ServerState)
    (left : Entropy) : (server.resolve now token s left).1.2 = s
      ∨ ∃ e, (server.resolve now token s left).1.2 = ⟨s.preKeys, s.sessions.insert token e⟩ := by
  by_cases htoken : token = ""
  · subst htoken
    exact .inl rfl
  · rw [resolve_apply htoken]
    split
    · exact .inl rfl
    · exact .inr ⟨_, rfl⟩

/-! ### What comes of a token -/

theorem result_of_resolve (server : LoginServer) (now : Tick) (s : ServerState) (left : Entropy)
    (htoken : token ≠ "") : (server.resolve now token s left).1.1 =
      match s.sessions.live? token now with
      | none => .error .sessionNotFound
      | some session => .ok session := by
  rw [resolve_apply htoken, ExpiringTable.live?]
  cases (s.sessions.lookup token).filter (·.isLive now) <;> rfl

theorem result_of_logout (now : Tick) (s : ServerState) (left : Entropy) (htoken : token ≠ "") :
    (logout now token s left).1.1 =
      if (s.sessions.live? token now).isSome then .ok () else .error .sessionNotFound := by
  rw [logout_apply htoken]

/-- A session that is live under a token is what the token stands for. -/
theorem resolve_of_live {session : SessionRecord} (htoken : token ≠ "")
    (h : s.sessions.live? token now = some session) :
    (server.resolve now token s left).1.1 = .ok session := by
  rw [result_of_resolve server now s left htoken, h]

end LoginServer

end SealedLogin
