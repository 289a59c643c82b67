import SealedLogin.Proofs.Envelope.Sealing
import SealedLogin.Proofs.Http.Bearer
import SealedLogin.Proofs.Login.Effects

/-!
# A login that nobody disturbs

`Encounter.play` runs both rounds of a login with every message delivered as it was sent, while
others use the server in between. Under `Encounter.Honest` each step of it succeeds (`start_eq` to
`finish_eq`), and the client ends up with the token that the server has put in its store
(`play_of_honest`). What is taken for granted of the two curves is that both sides agree on their
keys and that the two signatures made in a login verify.
-/

namespace SealedLogin

/-- A login of one client, with everything it depends on. -/
structure Encounter where
  server : LoginServer
  /-- What the server keeps when the client comes. -/
  state : ServerState
  credentials : Credentials
  clientEntropy : Entropy
  issueEntropy : Entropy
  loginEntropy : Entropy
  identifier : String
  issuedAt : Tick
  /-- The calls that reach the server between the two rounds. -/
  between : List ServerCall
  sealedAt : Instant
  loginAt : Moment
  finishedAt : Instant
  /-- How far the stamp of the answer may be off for the client. -/
  window : Duration

namespace Encounter

/-- Both rounds of the login. The result is the session of the client and what the server keeps. -/
def play (e : Encounter) : Except ProtocolError (EstablishedSession × ServerState) := do
  let (sent, clientLeft) := PreKeySent.start e.clientEntropy
  let sent ← sent
  let ((response, kept), _) :=
    e.server.issuePreKey e.issuedAt e.identifier sent.request e.state e.issueEntropy
  let response ← response
  let derived ← sent.deriveKeys response
  let (sealed, _) := derived.login e.sealedAt e.credentials clientLeft
  let (waiting, request) ← sealed
  let ((answer, kept), _) :=
    e.server.login e.loginAt request (e.server.run kept e.between) e.loginEntropy
  let answer ← answer
  let session ← waiting.finish e.finishedAt answer e.window
  return (session, kept)

/-- The index that the server makes of the identifier. -/
def index (e : Encounter) : String := LoginServer.indexHead ++ e.identifier

/-- The secrets of the client. -/
def client (e : Encounter) : SessionKeyMaterial := .ofEntropy e.clientEntropy

/-- The secrets of the server. -/
def host (e : Encounter) : SessionKeyMaterial := .ofEntropy e.issueEntropy

/-- The token that the server draws. -/
def token (e : Encounter) : String := LoginServer.freshToken e.loginEntropy

/-- What the client seals its credentials from. -/
def clientLeft (e : Encounter) : Entropy := e.clientEntropy.drop SessionKeyMaterial.entropyLength

/-- What the server seals its answer from. -/
def hostLeft (e : Encounter) : Entropy := e.loginEntropy.drop LoginServer.tokenLength

/-- The record of the session that the server opens for a user. -/
def record (e : Encounter) (user : AuthenticatedUser) : SessionRecord :=
  ⟨e.token, user, e.loginAt.wall⟩

/-- What the server keeps for the second round. -/
def preKey (e : Encounter) (keys : DirectionalKeys) : PreKeyRecord :=
  ⟨e.index, e.client.signing.publicKey, e.host.signing, keys⟩

/-- What the server keeps after the first round. -/
def issued (e : Encounter) (keys : DirectionalKeys) : ServerState :=
  ⟨e.state.preKeys.put (e.preKey keys) e.issuedAt e.server.lifetimes.preKey, e.state.sessions⟩

/-- The client after the first round. -/
def derived (e : Encounter) (keys : DirectionalKeys) : KeysDerived :=
  ⟨e.index, e.client.signing, e.host.signing.publicKey, keys⟩

/-- The client in wait for the answer. -/
def waiting (e : Encounter) (keys : DirectionalKeys) : LoginSent :=
  ⟨e.index, e.host.signing.publicKey, keys.serverToClient⟩

/-- Both sides agree on the keys, have enough random bytes and clocks that are close enough, nobody
else uses the index, and the server accepts the credentials as those of the user. -/
structure Honest (e : Encounter) (keys : DirectionalKeys) (user : AuthenticatedUser) : Prop where
  client_entropy :
    SessionKeyMaterial.entropyLength + Envelope.entropyLength ≤ e.clientEntropy.length
  issue_entropy : SessionKeyMaterial.entropyLength ≤ e.issueEntropy.length
  login_entropy : LoginServer.tokenLength + Envelope.entropyLength ≤ e.loginEntropy.length
  login_id : e.credentials.loginId ≠ ""
  request_size : Envelope.size e.index e.credentials.payloads < Record.sizeLimit
  answer_size : Envelope.size e.index [Record.ofString e.token] < Record.sizeLimit
  commutes : e.client.Commutes e.host
  agreed : e.client.deriveWith e.host = .ok keys
  client_vouches : ∀ encrypted, Envelope.ciphertext e.sealedAt e.index keys.clientToServer
    e.credentials.payloads e.clientLeft = .ok encrypted → e.client.signing.Vouches encrypted
  host_vouches : ∀ encrypted, Envelope.ciphertext e.loginAt.wall e.index keys.serverToClient
    [Record.ofString e.token] e.hostLeft = .ok encrypted → e.host.signing.Vouches encrypted
  sealed_utc : e.sealedAt.IsUtc
  sealed_year : e.sealedAt.HasPlainYear
  login_utc : e.loginAt.wall.IsUtc
  login_year : e.loginAt.wall.HasPlainYear
  finished_representable : e.finishedAt.IsRepresentable
  request_fresh :
    (e.loginAt.wall.since e.sealedAt.wholeSecond).natAbs ≤ e.server.lifetimes.envelope
  answer_fresh : (e.finishedAt.since e.loginAt.wall.wholeSecond).natAbs ≤ e.window
  in_time : e.loginAt.tick < e.issuedAt + e.server.lifetimes.preKey
  others : ∀ c ∈ e.between, c.now.tick ≤ e.loginAt.tick ∧ ¬c.UsesIndex e.index
  accepted : e.server.authenticate e.credentials.attempt = .ok (some user)

section

variable {e : Encounter} {keys : DirectionalKeys} {user : AuthenticatedUser}

theorem index_ne_empty (e : Encounter) : e.index ≠ "" := by
  intro h
  have hlength := congrArg String.length h
  rw [index, String.length_append, String.length_empty] at hlength
  exact absurd hlength (by simp [LoginServer.indexHead])

theorem length_clientLeft (h : e.Honest keys user) :
    Envelope.entropyLength ≤ e.clientLeft.length := by
  rw [clientLeft, List.length_drop]
  exact Nat.le_sub_of_add_le' h.client_entropy

theorem length_hostLeft (h : e.Honest keys user) :
    Envelope.entropyLength ≤ e.hostLeft.length := by
  rw [hostLeft, List.length_drop]
  exact Nat.le_sub_of_add_le' h.login_entropy

theorem token_ne_empty (h : e.Honest keys user) : e.token ≠ "" := by
  refine Hex.encode_ne_empty fun hnil => ?_
  have hle : LoginServer.tokenLength ≤ e.loginEntropy.length :=
    Nat.le_of_add_right_le h.login_entropy
  have hlength := List.length_take_of_le hle
  rw [hnil] at hlength
  exact absurd hlength (by decide)

/-! ### The first round -/

theorem start_eq (h : e.Honest keys user) :
    PreKeySent.start e.clientEntropy = (.ok ⟨e.client⟩, e.clientLeft) :=
  PreKeySent.start_eq_ok_iff.2 ⟨Nat.le_of_add_right_le h.client_entropy, rfl, rfl⟩

/-- The server reads the client's keys as they are. -/
theorem keys_request (h : e.Honest keys user) : (PreKeySent.mk e.client).request.keys
    = .ok ⟨e.client.signing.publicKey, e.client.exchange1.publicKey,
      e.client.exchange2.publicKey⟩ := by
  obtain ⟨encrypted, hencrypted, -⟩ := Envelope.exists_ciphertext keys.clientToServer
    h.sealed_year (length_clientLeft h) h.request_size
  have hsigning := SigningIdentity.ofHex_publicHex (h.client_vouches encrypted hencrypted)
  exact PreKeyRequest.keys_eq_ok_iff.2 ⟨SigningIdentity.publicHex_ne_empty _,
    ExchangeKeyPair.publicHex_ne_empty _, ExchangeKeyPair.publicHex_ne_empty _, hsigning,
    ExchangeKeyPair.ofHex_publicHex _, ExchangeKeyPair.ofHex_publicHex _⟩

theorem issue_eq (h : e.Honest keys user) :
    e.server.issuePreKey e.issuedAt e.identifier (PreKeySent.mk e.client).request e.state
        e.issueEntropy
      = ((.ok (e.server.responseFor e.index e.host), e.issued keys),
        e.issueEntropy.drop SessionKeyMaterial.entropyLength) := by
  have hderive : e.host.deriveWith e.client = .ok keys := by
    rw [← SessionKeyMaterial.deriveWith_comm h.commutes]
    exact h.agreed
  refine LoginServer.issuePreKey_eq_ok_iff.2 ⟨_, e.preKey keys, keys_request h, ?_, rfl⟩
  exact LoginServer.answerPreKey_eq_ok_iff.2 ⟨h.issue_entropy, ⟨keys, hderive, rfl⟩, rfl, rfl⟩

theorem derive_eq (h : e.Honest keys user) :
    (PreKeySent.mk e.client).deriveKeys (e.server.responseFor e.index e.host)
      = .ok (e.derived keys) := by
  obtain ⟨encrypted, hencrypted, -⟩ := Envelope.exists_ciphertext keys.serverToClient
    h.login_year (length_hostLeft h) h.answer_size
  have hsigning := SigningIdentity.ofHex_publicHex (h.host_vouches encrypted hencrypted)
  refine PreKeySent.deriveKeys_eq_ok_iff.2 ⟨e.index_ne_empty, SigningIdentity.publicHex_ne_empty _,
    ExchangeKeyPair.publicHex_ne_empty _, ExchangeKeyPair.publicHex_ne_empty _, hsigning, ?_, rfl,
    rfl⟩
  exact ⟨_, _, ExchangeKeyPair.ofHex_publicHex _, ExchangeKeyPair.ofHex_publicHex _, h.agreed⟩

/-! ### The second round -/

/-- The client has sealed its login in the envelope, which is fresh when the server gets it. -/
structure Seals (e : Encounter) (keys : DirectionalKeys) (envelope : String) : Prop where
  ne_empty : envelope ≠ ""
  sent : (e.derived keys).login e.sealedAt e.credentials e.clientLeft
    = (.ok (e.waiting keys, ⟨e.index, envelope⟩), e.clientLeft.drop Envelope.entropyLength)
  opens : Envelope.unpack e.loginAt.wall e.index e.client.signing.publicKey keys.clientToServer
    e.server.lifetimes.envelope envelope = .ok e.credentials.payloads

theorem exists_seals (h : e.Honest keys user) : ∃ envelope, e.Seals keys envelope := by
  obtain ⟨envelope, hpack⟩ := Envelope.exists_pack e.client.signing keys.clientToServer
    h.sealed_year (length_clientLeft h) h.request_size
  have hopens := Envelope.unpack_of_pack_of_fresh h.sealed_utc h.sealed_year
    h.login_utc.toIsRepresentable h.request_fresh hpack h.client_vouches
  exact ⟨envelope, Envelope.ne_empty_of_pack hpack,
    KeysDerived.login_eq_ok_iff.2 ⟨hpack, rfl, rfl⟩, hopens⟩

theorem ofPayloads_eq (h : e.Honest keys user) :
    LoginAttempt.ofPayloads e.credentials.payloads = .ok e.credentials.attempt := by
  rw [LoginAttempt.ofPayloads_payloads, if_neg h.login_id]

/-- The server reads the client's envelope as the user's login. -/
theorem Seals.readLogin_eq {envelope : String} (hseals : e.Seals keys envelope)
    (h : e.Honest keys user) :
    e.server.readLogin e.loginAt.wall (e.preKey keys) envelope = .ok user :=
  LoginServer.readLogin_eq_ok_iff.2 ⟨_, _, hseals.opens, ofPayloads_eq h, h.accepted⟩

/-- The server's envelope, which the client reads as the token. -/
theorem exists_answer (h : e.Honest keys user) : ∃ text,
    LoginServer.openSession e.loginAt.wall (e.preKey keys) user e.loginEntropy
      = (.ok (e.record user, ⟨text⟩), e.hostLeft.drop Envelope.entropyLength)
    ∧ (e.waiting keys).finish e.finishedAt ⟨text⟩ e.window = .ok ⟨e.index, e.token⟩ := by
  obtain ⟨text, hpack⟩ := Envelope.exists_pack e.host.signing keys.serverToClient
    h.login_year (length_hostLeft h) h.answer_size
  have hunpack := Envelope.unpack_of_pack_of_fresh h.login_utc h.login_year
    h.finished_representable h.answer_fresh hpack h.host_vouches
  refine ⟨text, ?_, ?_⟩
  · exact LoginServer.openSession_eq_ok_iff.2
      ⟨Nat.le_of_add_right_le h.login_entropy, rfl, hpack⟩
  · exact LoginSent.finish_eq_ok_iff.2
      ⟨Envelope.ne_empty_of_pack hpack, hunpack, token_ne_empty h, rfl⟩

/-- The record is still there when the login arrives. -/
theorem live_preKey (h : e.Honest keys user) :
    (e.server.run (e.issued keys) e.between).preKeys.live? e.index e.loginAt.tick
      = some (e.preKey keys) :=
  LoginServer.live_preKey_run (ExpiringTable.live?_insert_start _ _ _ h.in_time) h.others

/-- What the server keeps after the login. -/
def closed (e : Encounter) (keys : DirectionalKeys) (user : AuthenticatedUser) : ServerState :=
  let kept := e.server.run (e.issued keys) e.between
  ⟨kept.preKeys.erase e.index,
    kept.sessions.put (e.record user) e.loginAt.tick e.server.lifetimes.session⟩

theorem live_session_closed (keys : DirectionalKeys) (user : AuthenticatedUser) {now : Tick}
    (h : now < e.loginAt.tick + e.server.lifetimes.session) :
    (e.closed keys user).sessions.live? e.token now = some (e.record user) :=
  ExpiringTable.live?_insert_start _ _ _ h

theorem login_eq {envelope answer : String} {rest : Entropy} (h : e.Honest keys user)
    (hseals : e.Seals keys envelope)
    (hopen : LoginServer.openSession e.loginAt.wall (e.preKey keys) user e.loginEntropy
      = (.ok (e.record user, ⟨answer⟩), rest)) :
    e.server.login e.loginAt ⟨e.index, envelope⟩ (e.server.run (e.issued keys) e.between)
      e.loginEntropy = ((.ok ⟨answer⟩, e.closed keys user), rest) :=
  LoginServer.login_eq_ok_iff.2 ⟨e.index_ne_empty, hseals.ne_empty, _, _, _, live_preKey h,
    hseals.readLogin_eq h, hopen, rfl⟩

theorem play_eq_of_steps {sent : PreKeySent} {response : PreKeyResponse} {derived : KeysDerived}
    {waiting : LoginSent} {request : LoginRequest} {answer : LoginResponse}
    {session : EstablishedSession} {issued closed : ServerState} {left rest rest' rest'' : Entropy}
    (hstart : PreKeySent.start e.clientEntropy = (.ok sent, left))
    (hissue : e.server.issuePreKey e.issuedAt e.identifier sent.request e.state e.issueEntropy
      = ((.ok response, issued), rest))
    (hderive : sent.deriveKeys response = .ok derived)
    (hseal : derived.login e.sealedAt e.credentials left = (.ok (waiting, request), rest'))
    (hlogin : e.server.login e.loginAt request (e.server.run issued e.between) e.loginEntropy
      = ((.ok answer, closed), rest''))
    (hfinish : waiting.finish e.finishedAt answer e.window = .ok session) :
    e.play = .ok (session, closed) := by
  unfold play
  rw [hstart]
  refine bind_eq_ok_iff.2 ⟨sent, rfl, ?_⟩
  rw [hissue]
  refine bind_eq_ok_iff.2 ⟨response, rfl, bind_eq_ok_iff.2 ⟨derived, hderive, ?_⟩⟩
  rw [hseal]
  refine bind_eq_ok_iff.2 ⟨(waiting, request), rfl, ?_⟩
  dsimp only
  rw [hlogin]
  exact bind_eq_ok_iff.2 ⟨answer, rfl, bind_eq_ok_iff.2 ⟨session, hfinish, rfl⟩⟩

theorem play_eq (h : e.Honest keys user) :
    e.play = .ok (⟨e.index, e.token⟩, e.closed keys user) := by
  obtain ⟨envelope, hseals⟩ := exists_seals h
  obtain ⟨answer, hopen, hfinish⟩ := exists_answer h
  exact play_eq_of_steps (start_eq h) (issue_eq h) (derive_eq h) hseals.sent
    (login_eq h hseals hopen) hfinish

/-! ### The two rounds as calls -/

/-- The call of the first round. -/
def issueCall (e : Encounter) : ServerCall :=
  ⟨.issue e.identifier (PreKeySent.mk e.client).request, ⟨e.sealedAt, e.issuedAt⟩, e.issueEntropy⟩

/-- The call of the second round, with the envelope of the client. -/
def loginCall (e : Encounter) (envelope : String) : ServerCall :=
  ⟨.login ⟨e.index, envelope⟩, e.loginAt, e.loginEntropy⟩

theorem issues_issueCall (h : e.Honest keys user) :
    e.server.Issues e.state e.issueCall (e.preKey keys) :=
  ⟨e.identifier, (PreKeySent.mk e.client).request, e.server.responseFor e.index e.host,
    e.issueEntropy.drop SessionKeyMaterial.entropyLength, rfl, rfl, issue_eq h⟩

theorem after_issueCall (h : e.Honest keys user) :
    e.server.after e.state e.issueCall = e.issued keys := (issues_issueCall h).after_eq

/-- What the first round leaves is the same whoever decides about the credentials. -/
theorem run_issueCall {server : LoginServer} (h : e.Honest keys user) (hstate : e.state = .empty)
    (hlifetimes : server.lifetimes = e.server.lifetimes) :
    server.run .empty [e.issueCall] = e.issued keys := by
  have hissues := (issues_issueCall h).of_lifetimes hlifetimes
  rw [← hstate, LoginServer.run, List.foldl_cons, List.foldl_nil, hissues.after_eq, hlifetimes]
  rfl

theorem live_preKey_issueCall {server : LoginServer} (h : e.Honest keys user)
    (hstate : e.state = .empty) (hlifetimes : server.lifetimes = e.server.lifetimes) :
    (server.run .empty [e.issueCall]).preKeys.live? e.index e.loginAt.tick
      = some (e.preKey keys) := by
  rw [run_issueCall h hstate hlifetimes]
  exact ExpiringTable.live?_insert_start _ _ _ h.in_time

theorem exists_admits_loginCall (h : e.Honest keys user) : ∃ envelope,
    e.server.Admits (e.server.run e.state (e.issueCall :: e.between)) (e.loginCall envelope)
      (e.record user) := by
  obtain ⟨envelope, hseals⟩ := exists_seals h
  obtain ⟨answer, hopen, -⟩ := exists_answer h
  refine ⟨envelope, ?_⟩
  rw [LoginServer.run, List.foldl_cons, after_issueCall h]
  exact ⟨_, _, _, rfl, login_eq h hseals hopen⟩

end

/-- Nobody needs to be there but the client. -/
theorem Honest.alone {e : Encounter} {keys : DirectionalKeys} {user : AuthenticatedUser}
    (h : e.Honest keys user) : ({ e with between := [] } : Encounter).Honest keys user :=
  { h with others := nofun }

theorem Seals.alone {e : Encounter} {keys : DirectionalKeys} {envelope : String}
    (h : e.Seals keys envelope) : ({ e with between := [] } : Encounter).Seals keys envelope :=
  ⟨h.ne_empty, h.sent, h.opens⟩

/-- Nor does it matter what the server has kept before. -/
theorem Honest.resumed {e : Encounter} {keys : DirectionalKeys} {user : AuthenticatedUser}
    (h : e.Honest keys user) (state : ServerState) :
    ({ e with state := state } : Encounter).Honest keys user :=
  { h with }

/-- Any authenticator will do that accepts the credentials. -/
theorem Honest.admitting {e : Encounter} {keys : DirectionalKeys} {user user' : AuthenticatedUser}
    (h : e.Honest keys user) {authenticate : Authenticator}
    (haccepted : authenticate e.credentials.attempt = .ok (some user')) :
    ({ e with server := ⟨authenticate, e.server.lifetimes⟩ } : Encounter).Honest keys user' :=
  { h with accepted := haccepted }

/-! ### The outcome -/

/-- A login that nobody disturbs succeeds. The client has the token that the server drew, 128
hexadecimal digits; the server has the session of the user under it, finds the token in a request
that presents it, and resolves it until the session expires, whatever others do in the meantime. -/
theorem play_of_honest (e : Encounter) (keys : DirectionalKeys) (user : AuthenticatedUser)
    (h : e.Honest keys user) : ∃ kept, e.play = .ok (⟨e.index, e.token⟩, kept)
      ∧ e.token = Hex.encode (e.loginEntropy.take 64) ∧ e.token.length = 128
      ∧ (∀ c ∈ e.token.toList, c ∈ Hex.digits)
      ∧ kept.sessions.lookup e.token
        = some (.start ⟨e.token, user, e.loginAt.wall⟩ e.loginAt.tick e.server.lifetimes.session)
      ∧ (∀ r : Http.Request, r.Presents ⟨e.index, e.token⟩ → r.bearerToken? = some e.token)
      ∧ ∀ (calls : List ServerCall) (later : Tick) (left : Entropy),
        (∀ c ∈ calls, c.now.tick ≤ later ∧ ¬c.UsesToken e.token) →
        later < e.loginAt.tick + e.server.lifetimes.session →
        (e.server.resolve later e.token (e.server.run kept calls) left).1.1
          = .ok ⟨e.token, user, e.loginAt.wall⟩ := by
  have hlength : (e.loginEntropy.take LoginServer.tokenLength).length = 64 :=
    List.length_take_of_le (Nat.le_of_add_right_le h.login_entropy)
  refine ⟨e.closed keys user, play_eq h, rfl, ?_, ?_, ?_, ?_, ?_⟩
  · rw [token, LoginServer.freshToken, Hex.length_encode, hlength]
  · exact fun c hc => Hex.mem_digits_of_mem_encode hc
  · exact ExpiringTable.lookup_insert_self _ _ _
  · intro r hr
    exact Http.Request.bearerToken?_of_presents hr (token_ne_empty h) fun c hc =>
      Http.Request.isVisible_of_mem_encode hc
  · intro calls later left hcalls hlater
    refine LoginServer.resolve_of_live (token_ne_empty h) ?_
    exact LoginServer.live_session_run (live_session_closed keys user hlater) hcalls

/-- A login that begins in the leap second at the end of 2016, with a purge and the login of another
client in between. -/
def leap : Encounter where
  server := ⟨fun attempt =>
    if attempt = ⟨"a", "", none⟩ then .ok (some ⟨"user", none⟩) else .ok none, .standard⟩
  state := .empty
  credentials := ⟨"a", "", none⟩
  clientEntropy := List.replicate 32 1 ++ List.replicate 32 2 ++ List.replicate 32 3
    ++ List.replicate 48 4
  issueEntropy := List.replicate 32 5 ++ List.replicate 32 6 ++ List.replicate 32 7
  loginEntropy := List.replicate 112 8
  identifier := "0"
  issuedAt := 0
  between := [⟨.purge, ⟨⟨1483228800, 0⟩, 1000000000⟩, []⟩,
    ⟨.login ⟨"PREKEY_1", "00"⟩, ⟨⟨1483228800, 0⟩, 1000000000⟩, []⟩]
  sealedAt := ⟨1483228799, 1500000000⟩
  loginAt := ⟨⟨1483228801, 250000000⟩, 2000000000⟩
  finishedAt := ⟨1483228802, 0⟩
  window := Envelope.defaultTtl

/-- The keys that both sides agree on. -/
def leapKeys : DirectionalKeys :=
  ⟨Envelope.leapKey, Bytes.ofNatBE 32
    0x1d2295e4fbd2b98d28bc11393db3a51fc1773c6d39a71c30b630b3f515369609, Bytes.length_ofNatBE 32 _⟩

/-- The ciphertext of the answer. -/
def leapAnswer : Bytes :=
  [0x08080808080808080808080808080808a73d978d418e000537744e9bea0dd4d7,
    0xd46636e0dad558152ead84dd913aa7cd1ff4cc5fbf7508055a95370726011c02,
    0x4b145c75b90137386e9e77f2c53576bb140dbf3d410c8e8ee92fc2467ca7eb1e,
    0xfe12f484e8f01cf6f6aee8f9bf698fe2ebd82e018c60fe3114390571254d6103,
    0x2d22e63c02657910e8dd3dab87d199b5dc7c07622ebd37fce6e93f01c816934f,
    0xb1b983844b191332295c1b3e7daf3b0dd56d4dfef7bbb38fdbe9aaeb6bd13b0a,
    0xa01d3527972ee7ba94f86fed8497f921bd96c2bf5122cd0fd963a175253ac669,
    0x31dca50c490b922a5664e12343209981ed9d855dc2ec868b10fbb8cd9897a520,
    0xe9200d277be3e6fd497b73e1d1d68d6afe07aeebf40bc21bbf70fe676de0a7c6].flatMap (Bytes.ofNatBE 32)
    ++ Bytes.ofNatBE 16 0x9d8bf1cf21e866b931d51f8fac78a85c

theorem ciphertext_leapAnswer : Envelope.ciphertext leap.loginAt.wall leap.index
    leapKeys.serverToClient [Record.ofString leap.token] leap.hostLeft = .ok leapAnswer :=
  Envelope.ciphertext_of_ciphertextNat (by decide +kernel)

theorem vouches_leapAnswer : leap.host.signing.Vouches leapAnswer :=
  SigningIdentity.vouches_iff_acceptsNat.2 (by decide +kernel)

theorem agree_leap :
    (leap.client.exchange1.agree leap.host.exchange1.publicKey).toOption
        = some leapKeys.clientToServer
      ∧ (leap.host.exchange1.agree leap.client.exchange1.publicKey).toOption
        = some leapKeys.clientToServer
      ∧ (leap.client.exchange2.agree leap.host.exchange2.publicKey).toOption
        = some leapKeys.serverToClient
      ∧ (leap.host.exchange2.agree leap.client.exchange2.publicKey).toOption
        = some leapKeys.serverToClient := by
  decide +kernel

theorem commutes_leap : leap.client.Commutes leap.host := by
  obtain ⟨h1, h1', h2, h2'⟩ := agree_leap
  rw [Envelope.toOption_eq_some_iff] at h1 h1' h2 h2'
  exact ⟨h1.trans h1'.symm, h2.trans h2'.symm⟩

theorem deriveWith_leap : leap.client.deriveWith leap.host = .ok leapKeys := by
  obtain ⟨h1, -, h2, -⟩ := agree_leap
  rw [Envelope.toOption_eq_some_iff] at h1 h2
  exact SessionKeyMaterial.derive_eq_ok_iff.2 ⟨h1, h2⟩

theorem ciphertext_leapRequest : Envelope.ciphertext leap.sealedAt leap.index
    leapKeys.clientToServer leap.credentials.payloads leap.clientLeft
      = .ok Envelope.leapCiphertext := by
  have hindex : leap.index = "PREKEY_0" := by decide +kernel
  have hpayloads : leap.credentials.payloads = Envelope.leapPayloads := by decide
  have hleft : leap.clientLeft = List.replicate 48 4 := by decide
  rw [hindex, hpayloads, hleft]
  exact Envelope.ciphertext_leapPayloads

theorem client_vouches_leap : ∀ encrypted, Envelope.ciphertext leap.sealedAt leap.index
    leapKeys.clientToServer leap.credentials.payloads leap.clientLeft = .ok encrypted →
      leap.client.signing.Vouches encrypted := by
  have hsigner : leap.client.signing = ⟨List.replicate 32 1⟩ := by decide
  intro encrypted hencrypted
  cases ciphertext_leapRequest.symm.trans hencrypted
  rw [hsigner]
  exact Envelope.vouches_leapCiphertext

theorem host_vouches_leap : ∀ encrypted, Envelope.ciphertext leap.loginAt.wall leap.index
    leapKeys.serverToClient [Record.ofString leap.token] leap.hostLeft = .ok encrypted →
      leap.host.signing.Vouches encrypted := by
  intro encrypted hencrypted
  cases ciphertext_leapAnswer.symm.trans hencrypted
  exact vouches_leapAnswer

theorem honest_leap : leap.Honest leapKeys ⟨"user", none⟩ where
  client_entropy := by decide +kernel
  issue_entropy := by decide +kernel
  login_entropy := by decide +kernel
  login_id := by decide
  request_size := by decide +kernel
  answer_size := by decide +kernel
  commutes := commutes_leap
  agreed := deriveWith_leap
  client_vouches := client_vouches_leap
  host_vouches := host_vouches_leap
  sealed_utc := ⟨⟨by decide, by decide, by decide⟩, by decide⟩
  sealed_year := ⟨by decide +kernel, by decide +kernel⟩
  login_utc := ⟨⟨by decide, by decide, by decide⟩, by decide⟩
  login_year := ⟨by decide +kernel, by decide +kernel⟩
  finished_representable := ⟨by decide, by decide, by decide⟩
  request_fresh := by decide
  answer_fresh := by decide
  in_time := by decide
  others := by
    have hother : "PREKEY_1" ≠ leap.index := by decide +kernel
    intro c hc
    simp only [leap, List.mem_cons, List.not_mem_nil, or_false] at hc
    rcases hc with rfl | rfl
    · exact ⟨by decide, id⟩
    · exact ⟨by decide, hother⟩
  accepted := by
    have hattempt : leap.credentials.attempt = ⟨"a", "", none⟩ := rfl
    rw [hattempt]
    rfl

/-- This login succeeds, and its token is that of sixty-four bytes eight. -/
theorem play_leap : ∃ kept, leap.play = .ok (⟨"PREKEY_0", leap.token⟩, kept)
    ∧ leap.token = Hex.encode (List.replicate 64 8)
    ∧ (leap.server.resolve 3000000000 leap.token (leap.server.run kept []) []).1.1
      = .ok ⟨leap.token, ⟨"user", none⟩, ⟨1483228801, 250000000⟩⟩ := by
  obtain ⟨kept, hplay, htoken, -, -, -, -, hresolve⟩ :=
    play_of_honest leap leapKeys ⟨"user", none⟩ honest_leap
  refine ⟨kept, hplay, htoken, ?_⟩
  exact hresolve [] 3000000000 [] (fun c hc => absurd hc (List.not_mem_nil)) (by decide)

end Encounter

end SealedLogin
