import SealedLogin.Login.Client
import SealedLogin.Login.Server
import SealedLogin.Proofs.Envelope.Opening
import SealedLogin.Proofs.Keys.Material

/-!
# When the steps of a login succeed

For each step of the client and of the server, what it takes to succeed and what comes of it then.
Of the server's calls it is also said what a failed one leaves (`issuePreKey_cases`, `login_cases`):
an issue that fails changes nothing, a login that fails no more than to drop its index.
-/

namespace SealedLogin

/-! ### Calls to the server -/

namespace ServerStep

variable {α β : Type} {x : ServerStep α} {f : α → ServerStep β} {s s' : ServerState}
  {left rest : Entropy}

theorem bind_apply (x : ServerStep α) (f : α → ServerStep β) (s : ServerState) (left : Entropy) :
    (x >>= f) s left = match x s left with
      | ((.ok a, s), left) => f a s left
      | ((.error e, s), left) => ((.error e, s), left) := by
  show (match x s left with | ((r, s), left) => ExceptT.bindCont f r s left) = _
  rcases x s left with ⟨⟨_ | a, mid⟩, between⟩ <;> rfl

/-- A sequence of calls ends with the failure of the first one, or as the rest ends after it. -/
theorem bind_eq_iff {r : Except ProtocolError β} : (x >>= f) s left = ((r, s'), rest) ↔
    (∃ e, x s left = ((.error e, s'), rest) ∧ r = .error e)
      ∨ ∃ a mid between, x s left = ((.ok a, mid), between)
        ∧ f a mid between = ((r, s'), rest) := by
  rw [bind_apply]
  rcases x s left with ⟨⟨e | a, mid⟩, between⟩
  · constructor
    · intro h
      cases h
      exact .inl ⟨e, rfl, rfl⟩
    · rintro (⟨_, h, rfl⟩ | ⟨_, _, _, h, -⟩) <;> cases h
      rfl
  · constructor
    · intro h
      exact .inr ⟨a, mid, between, rfl, h⟩
    · rintro (⟨_, h, -⟩ | ⟨_, _, _, h, hf⟩) <;> cases h
      exact hf

theorem bind_eq_ok_iff {b : β} : (x >>= f) s left = ((.ok b, s'), rest) ↔
    ∃ a mid between, x s left = ((.ok a, mid), between)
      ∧ f a mid between = ((.ok b, s'), rest) := by
  rw [bind_eq_iff]
  constructor
  · rintro (⟨_, -, h⟩ | h)
    · cases h
    · exact h
  · exact .inr

@[simp] theorem ofExcept_apply (result : Except ProtocolError α) (s : ServerState)
    (left : Entropy) : ofExcept result s left = ((result, s), left) := rfl

@[simp] theorem onPreKeys_apply (f : PreKeyStore → α × PreKeyStore) (s : ServerState)
    (left : Entropy) :
    onPreKeys f s left = ((.ok (f s.preKeys).1, ⟨(f s.preKeys).2, s.sessions⟩), left) := rfl

@[simp] theorem onSessions_apply (f : SessionStore → α × SessionStore) (s : ServerState)
    (left : Entropy) :
    onSessions f s left = ((.ok (f s.sessions).1, ⟨s.preKeys, (f s.sessions).2⟩), left) := rfl

theorem ofDrawing_eq_iff {d : Drawing ProtocolError α} {r : Except ProtocolError α} :
    ofDrawing d s left = ((r, s'), rest) ↔ d left = (r, rest) ∧ s' = s := by
  show ((_, s), _) = _ ↔ _
  rcases d left with ⟨result, after⟩
  constructor
  · intro h
    cases h
    exact ⟨rfl, rfl⟩
  · rintro ⟨h, rfl⟩
    cases h
    rfl

theorem ofExcept_eq_iff {result r : Except ProtocolError α} :
    ofExcept result s left = ((r, s'), rest) ↔ r = result ∧ s' = s ∧ rest = left := by
  rw [ofExcept, ofDrawing_eq_iff]
  constructor
  · rintro ⟨h, rfl⟩
    cases h
    exact ⟨rfl, rfl, rfl⟩
  · rintro ⟨rfl, rfl, rfl⟩
    exact ⟨rfl, rfl⟩

theorem onPreKeys_eq_iff {f : PreKeyStore → α × PreKeyStore} {r : Except ProtocolError α} :
    onPreKeys f s left = ((r, s'), rest) ↔
      r = .ok (f s.preKeys).1 ∧ s' = ⟨(f s.preKeys).2, s.sessions⟩ ∧ rest = left := by
  constructor
  · intro h
    cases h
    exact ⟨rfl, rfl, rfl⟩
  · rintro ⟨rfl, rfl, rfl⟩
    rfl

theorem onSessions_eq_iff {f : SessionStore → α × SessionStore} {r : Except ProtocolError α} :
    onSessions f s left = ((r, s'), rest) ↔
      r = .ok (f s.sessions).1 ∧ s' = ⟨s.preKeys, (f s.sessions).2⟩ ∧ rest = left := by
  constructor
  · intro h
    cases h
    exact ⟨rfl, rfl, rfl⟩
  · rintro ⟨rfl, rfl, rfl⟩
    rfl

theorem pure_eq_iff {a : α} {r : Except ProtocolError α} :
    (pure a : ServerStep α) s left = ((r, s'), rest) ↔ r = .ok a ∧ s' = s ∧ rest = left := by
  constructor
  · intro h
    cases h
    exact ⟨rfl, rfl, rfl⟩
  · rintro ⟨rfl, rfl, rfl⟩
    rfl

end ServerStep

/-! ### Parameters and keys -/

theorem requireParameter_eq_ok_iff {value name a : String} :
    requireParameter value name = .ok a ↔ value ≠ "" ∧ a = value := by
  have hempty : value.isEmpty = true ↔ value = "" := String.isEmpty_iff
  unfold requireParameter
  split
  · next h => exact iff_of_false (fun h => by cases h) fun hne => hne.1 (hempty.1 h)
  · next h =>
    constructor
    · intro heq
      cases heq
      exact ⟨fun heq => h (hempty.2 heq), rfl⟩
    · rintro ⟨-, rfl⟩
      rfl

theorem PreKeyRequest.keys_eq_ok_iff {request : PreKeyRequest} {client : ClientKeys} :
    request.keys = .ok client ↔ request.a0 ≠ "" ∧ request.a1 ≠ "" ∧ request.a2 ≠ ""
      ∧ VerifyingKey.ofHex request.a0 = .ok client.signing
      ∧ ExchangeKey.ofHex request.a1 = .ok client.exchange1
      ∧ ExchangeKey.ofHex request.a2 = .ok client.exchange2 := by
  simp only [keys, bind_eq_ok_iff, requireParameter_eq_ok_iff, ofKey_eq_ok_iff]
  constructor
  · rintro ⟨_, ⟨h0, rfl⟩, _, ⟨h1, rfl⟩, _, ⟨h2, rfl⟩, _, hsigning, _, hexchange1, _, hexchange2, h⟩
    cases h
    exact ⟨h0, h1, h2, hsigning, hexchange1, hexchange2⟩
  · rintro ⟨h0, h1, h2, hsigning, hexchange1, hexchange2⟩
    exact ⟨_, ⟨h0, rfl⟩, _, ⟨h1, rfl⟩, _, ⟨h2, rfl⟩, _, hsigning, _, hexchange1, _, hexchange2, rfl⟩

/-! ### The client -/

namespace PreKeySent

theorem start_eq_ok_iff {sent : PreKeySent} {left rest : Entropy} :
    start left = (.ok sent, rest) ↔ SessionKeyMaterial.entropyLength ≤ left.length
      ∧ sent = ⟨.ofEntropy left⟩ ∧ rest = left.drop SessionKeyMaterial.entropyLength := by
  simp only [start, Drawing.bind_eq_ok_iff, Drawing.adapt_eq_ok_iff, Drawing.pure_eq_ok_iff,
    SessionKeyMaterial.generate_eq_ok_iff]
  constructor
  · rintro ⟨_, _, ⟨hle, rfl, rfl⟩, rfl, rfl⟩
    exact ⟨hle, rfl, rfl⟩
  · rintro ⟨hle, rfl, rfl⟩
    exact ⟨_, _, ⟨hle, rfl, rfl⟩, rfl, rfl⟩

theorem deriveKeys_eq_ok_iff {sent : PreKeySent} {response : PreKeyResponse}
    {derived : KeysDerived} : sent.deriveKeys response = .ok derived ↔
    response.i ≠ "" ∧ response.b0 ≠ "" ∧ response.b1 ≠ "" ∧ response.b2 ≠ ""
      ∧ VerifyingKey.ofHex response.b0 = .ok derived.serverSigningKey
      ∧ (∃ peer1 peer2, ExchangeKey.ofHex response.b1 = .ok peer1
        ∧ ExchangeKey.ofHex response.b2 = .ok peer2
        ∧ sent.material.derive peer1 peer2 = .ok derived.keys)
      ∧ derived.index = response.i ∧ derived.signing = sent.material.signing := by
  simp only [deriveKeys, bind_eq_ok_iff, requireParameter_eq_ok_iff, ofKey_eq_ok_iff,
    mapError_eq_ok_iff]
  constructor
  · rintro ⟨_, ⟨hi, rfl⟩, _, ⟨h0, rfl⟩, _, hsigning, _, ⟨h1, rfl⟩, peer1, hpeer1, _, ⟨h2, rfl⟩,
      peer2, hpeer2, keys, hkeys, h⟩
    cases h
    exact ⟨hi, h0, h1, h2, hsigning, ⟨peer1, peer2, hpeer1, hpeer2, hkeys⟩, rfl, rfl⟩
  · rintro ⟨hi, h0, h1, h2, hsigning, ⟨peer1, peer2, hpeer1, hpeer2, hkeys⟩, hindex, hown⟩
    refine ⟨_, ⟨hi, rfl⟩, _, ⟨h0, rfl⟩, _, hsigning, _, ⟨h1, rfl⟩, peer1, hpeer1, _, ⟨h2, rfl⟩,
      peer2, hpeer2, _, hkeys, ?_⟩
    rw [← hindex, ← hown]

end PreKeySent

theorem KeysDerived.login_eq_ok_iff {derived : KeysDerived} {now : Instant}
    {credentials : Credentials} {waiting : LoginSent} {request : LoginRequest}
    {left rest : Entropy} :
    derived.login now credentials left = (.ok (waiting, request), rest) ↔
      Envelope.pack now derived.index derived.signing derived.keys.clientToServer
          credentials.payloads left = (.ok request.d, rest)
        ∧ waiting = ⟨derived.index, derived.serverSigningKey, derived.keys.serverToClient⟩
        ∧ request.i = derived.index := by
  simp only [login, Drawing.bind_eq_ok_iff, Drawing.pure_eq_ok_iff, Prod.mk.injEq]
  constructor
  · rintro ⟨_, _, hpack, ⟨rfl, rfl⟩, rfl⟩
    exact ⟨hpack, rfl, rfl⟩
  · rintro ⟨hpack, rfl, hindex⟩
    refine ⟨_, _, hpack, ⟨rfl, ?_⟩, rfl⟩
    rw [← hindex]

namespace LoginSent

theorem token_eq_ok_iff {payloads : List Record} {s : String} :
    token payloads = .ok s ↔ payloads = [Record.ofString s] ∧ s ≠ "" := by
  unfold token
  split
  · next payload =>
    simp only [bind_eq_ok_iff, ofRead_eq_ok_iff, Envelope.text_eq_ok_iff,
      requireParameter_eq_ok_iff]
    constructor
    · rintro ⟨_, hvalue, hne, rfl⟩
      refine ⟨?_, hne⟩
      rw [Record.ofString, ← hvalue]
    · rintro ⟨h, hne⟩
      cases h
      exact ⟨s, rfl, hne, rfl⟩
  · next h =>
    constructor
    · intro heq
      cases heq
    · rintro ⟨rfl, -⟩
      exact absurd rfl (h _)

theorem finish_eq_ok_iff {waiting : LoginSent} {now : Instant} {response : LoginResponse}
    {ttl : Duration} {session : EstablishedSession} :
    waiting.finish now response ttl = .ok session ↔ response.d ≠ ""
      ∧ Envelope.unpack now waiting.index waiting.serverSigningKey waiting.serverToClient ttl
          response.d = .ok [Record.ofString session.token]
      ∧ session.token ≠ "" ∧ session.index = waiting.index := by
  simp only [finish, bind_eq_ok_iff, requireParameter_eq_ok_iff, token_eq_ok_iff]
  constructor
  · rintro ⟨_, ⟨hd, rfl⟩, _, hunpack, _, ⟨rfl, hne⟩, h⟩
    cases h
    exact ⟨hd, hunpack, hne, rfl⟩
  · rintro ⟨hd, hunpack, hne, hindex⟩
    refine ⟨_, ⟨hd, rfl⟩, _, hunpack, _, ⟨rfl, hne⟩, ?_⟩
    rw [← hindex]

end LoginSent

/-! ### Credentials -/

/-- The attempt that is made with credentials: an empty organization counts as none. -/
def Credentials.attempt (c : Credentials) : LoginAttempt :=
  ⟨c.loginId, c.password, c.organization.filter (· ≠ "")⟩

namespace LoginAttempt

theorem payloadText_ofString (s : String) : payloadText (Record.ofString s) = .ok s :=
  ofRead_eq_ok_iff.2 (Envelope.text_eq_ok_iff.2 rfl)

theorem optionalPayloadText_map (organization : Option String) :
    optionalPayloadText (organization.map Record.ofString)
      = .ok (organization.filter (· ≠ "")) := by
  cases organization with
  | none => rfl
  | some s =>
    rw [Option.map_some, optionalPayloadText, payloadText_ofString, Except.map, Option.filter_some]
    by_cases hs : s = ""
    · rw [if_pos (String.isEmpty_iff.2 hs), if_neg (by simpa using hs)]
    · rw [if_neg (mt String.isEmpty_iff.1 hs), if_pos (by simpa using hs)]

/-- The payloads of credentials are read as the attempt made with them. -/
theorem ofPayloads_payloads (c : Credentials) : ofPayloads c.payloads =
    if c.loginId = "" then .error .invalidCredential else .ok c.attempt := by
  have horganization : (c.organization.toList.map Record.ofString).head?
      = c.organization.map Record.ofString := by
    cases c.organization <;> rfl
  rw [Credentials.payloads, List.cons_append, List.cons_append, List.nil_append, ofPayloads,
    horganization, payloadText_ofString, payloadText_ofString, optionalPayloadText_map]
  show (if c.loginId.isEmpty then _ else _) = _
  simp only [String.isEmpty_iff]
  rfl

theorem payloadText_eq_ok_iff {r : Record} {s : String} :
    payloadText r = .ok s ↔ r = Record.ofString s := by
  obtain ⟨value⟩ := r
  simp only [payloadText, ofRead_eq_ok_iff, Envelope.text_eq_ok_iff, Record.ofString,
    Record.mk.injEq]

theorem optionalPayloadText_eq_ok_iff {r : Option Record} {organization : Option String} :
    optionalPayloadText r = .ok organization ↔ ∃ requested : Option String,
      r = requested.map Record.ofString ∧ organization = requested.filter (· ≠ "") := by
  constructor
  · intro h
    cases r with
    | none =>
      cases h
      exact ⟨none, rfl, rfl⟩
    | some r =>
      rw [optionalPayloadText, map_eq_ok_iff] at h
      obtain ⟨s, hs, -⟩ := id h
      obtain rfl := payloadText_eq_ok_iff.1 hs
      have hmap := optionalPayloadText_map (some s)
      rw [Option.map_some, optionalPayloadText] at hmap
      rw [← map_eq_ok_iff, hmap] at h
      cases h
      exact ⟨some s, rfl, rfl⟩
  · rintro ⟨requested, rfl, rfl⟩
    exact optionalPayloadText_map requested

/-- The payloads of an attempt: the login id, which is not empty, the password, perhaps an
organization, and anything after it. -/
theorem ofPayloads_eq_ok_iff {payloads : List Record} {attempt : LoginAttempt} :
    ofPayloads payloads = .ok attempt ↔ ∃ (requested : Option String) (rest : List Record),
      payloads = Record.ofString attempt.loginId :: Record.ofString attempt.password :: rest
        ∧ rest.head? = requested.map Record.ofString ∧ attempt.loginId ≠ ""
        ∧ attempt.organization = requested.filter (· ≠ "") := by
  obtain ⟨loginId, password, organization⟩ := attempt
  constructor
  · intro h
    match payloads with
    | [] | [_] => cases h
    | first :: second :: rest =>
      simp only [ofPayloads, bind_eq_ok_iff, payloadText_eq_ok_iff,
        optionalPayloadText_eq_ok_iff] at h
      obtain ⟨id, rfl, word, rfl, organization, ⟨requested, hrest, rfl⟩, h⟩ := h
      split at h
      · cases h
      · next hid =>
        cases h
        exact ⟨requested, rest, rfl, hrest, mt String.isEmpty_iff.2 hid, rfl⟩
  · rintro ⟨requested, rest, rfl, hrest, hid, rfl⟩
    simp only [ofPayloads, bind_eq_ok_iff, payloadText_eq_ok_iff, optionalPayloadText_eq_ok_iff]
    refine ⟨loginId, rfl, password, rfl, _, ⟨requested, hrest, rfl⟩, ?_⟩
    rw [if_neg (mt String.isEmpty_iff.1 hid)]

end LoginAttempt

/-! ### The server -/

namespace LoginServer

variable {server : LoginServer} {s s' : ServerState} {left rest : Entropy}

/-- The record that is kept for a client's keys under an index. -/
def recordFor (index : String) (client : ClientKeys) (material : SessionKeyMaterial)
    (keys : DirectionalKeys) : PreKeyRecord :=
  ⟨index, client.signing, material.signing, keys⟩

/-- The answer to a client's keys. -/
def responseFor (server : LoginServer) (index : String) (material : SessionKeyMaterial) :
    PreKeyResponse :=
  ⟨index, material.bundle.signing, material.bundle.exchange1, material.bundle.exchange2,
    server.lifetimes.preKey.seconds⟩

theorem answerPreKey_eq_ok_iff {index : String} {client : ClientKeys} {record : PreKeyRecord}
    {response : PreKeyResponse} :
    server.answerPreKey index client left = (.ok (record, response), rest) ↔
      SessionKeyMaterial.entropyLength ≤ left.length
        ∧ (∃ keys, (SessionKeyMaterial.ofEntropy left).derive client.exchange1 client.exchange2
            = .ok keys ∧ record = recordFor index client (.ofEntropy left) keys)
        ∧ response = server.responseFor index (.ofEntropy left)
        ∧ rest = left.drop SessionKeyMaterial.entropyLength := by
  simp only [answerPreKey, Drawing.bind_eq_ok_iff, Drawing.adapt_eq_ok_iff, Drawing.pure_eq_ok_iff,
    Drawing.ofExcept_eq_ok_iff, SessionKeyMaterial.generate_eq_ok_iff, mapError_eq_ok_iff,
    Prod.mk.injEq]
  constructor
  · rintro ⟨_, _, ⟨hle, rfl, rfl⟩, keys, _, ⟨hkeys, rfl⟩, ⟨hrecord, hresponse⟩, rfl⟩
    exact ⟨hle, ⟨keys, hkeys, hrecord⟩, hresponse, rfl⟩
  · rintro ⟨hle, ⟨keys, hkeys, hrecord⟩, hresponse, rfl⟩
    exact ⟨_, _, ⟨hle, rfl, rfl⟩, keys, _, ⟨hkeys, rfl⟩, ⟨hrecord, hresponse⟩, rfl⟩

theorem issuePreKey_eq_ok_iff {now : Tick} {identifier : String} {request : PreKeyRequest}
    {response : PreKeyResponse} :
    server.issuePreKey now identifier request s left = ((.ok response, s'), rest) ↔
      ∃ client record, request.keys = .ok client
        ∧ server.answerPreKey (indexHead ++ identifier) client left = (.ok (record, response), rest)
        ∧ s' = ⟨s.preKeys.put record now server.lifetimes.preKey, s.sessions⟩ := by
  simp only [issuePreKey, ServerStep.bind_eq_ok_iff, ServerStep.ofExcept_eq_iff,
    ServerStep.ofDrawing_eq_iff, ServerStep.onPreKeys_eq_iff, ServerStep.pure_eq_iff]
  constructor
  · rintro ⟨client, _, _, ⟨hkeys, rfl, rfl⟩, ⟨record, _⟩, _, _, ⟨hanswer, rfl⟩, _, _, _,
      ⟨-, rfl, rfl⟩, hresponse, rfl, rfl⟩
    cases hresponse
    exact ⟨client, record, hkeys.symm, hanswer, rfl⟩
  · rintro ⟨client, record, hkeys, hanswer, rfl⟩
    exact ⟨client, _, _, ⟨hkeys.symm, rfl, rfl⟩, (record, response), _, _, ⟨hanswer, rfl⟩, (), _, _,
      ⟨trivial, rfl, rfl⟩, rfl, rfl, rfl⟩

/-- An issue that fails leaves what the server keeps. -/
theorem issuePreKey_of_lifetimes {server' : LoginServer}
    (h : server.lifetimes = server'.lifetimes) (now : Tick) (identifier : String)
    (request : PreKeyRequest) :
    server.issuePreKey now identifier request = server'.issuePreKey now identifier request := by
  simp only [issuePreKey, answerPreKey, h]

theorem state_of_issuePreKey_eq_error {now : Tick} {identifier : String} {request : PreKeyRequest}
    {e : ProtocolError}
    (h : server.issuePreKey now identifier request s left = ((.error e, s'), rest)) : s' = s := by
  simp only [issuePreKey, ServerStep.bind_eq_iff, ServerStep.ofExcept_eq_iff,
    ServerStep.ofDrawing_eq_iff] at h
  rcases h with ⟨_, ⟨-, rfl, -⟩, -⟩ | ⟨_, _, _, ⟨-, rfl, rfl⟩, h⟩
  · rfl
  rcases h with ⟨_, ⟨-, rfl⟩, -⟩ | ⟨⟨record, response⟩, _, _, ⟨-, rfl⟩, h⟩
  · rfl
  rcases h with ⟨_, h, -⟩ | ⟨_, _, _, -, h⟩ <;> cases h

theorem readLogin_eq_ok_iff {now : Instant} {record : PreKeyRecord} {envelope : String}
    {user : AuthenticatedUser} : server.readLogin now record envelope = .ok user ↔
      ∃ payloads attempt, Envelope.unpack now record.index record.clientSigningKey
          record.keys.clientToServer server.lifetimes.envelope envelope = .ok payloads
        ∧ LoginAttempt.ofPayloads payloads = .ok attempt
        ∧ server.authenticate attempt = .ok (some user) := by
  simp only [readLogin, bind_eq_ok_iff]
  constructor
  · rintro ⟨payloads, hunpack, attempt, hattempt, answer, hanswer, h⟩
    cases answer <;> cases h
    exact ⟨payloads, attempt, hunpack, hattempt, hanswer⟩
  · rintro ⟨payloads, attempt, hunpack, hattempt, hanswer⟩
    exact ⟨payloads, hunpack, attempt, hattempt, _, hanswer, rfl⟩

/-- The token that is made from the front of the given bytes. -/
def freshToken (left : Entropy) : String := Hex.encode (left.take tokenLength)

theorem openSession_eq_ok_iff {now : Instant} {record : PreKeyRecord} {user : AuthenticatedUser}
    {session : SessionRecord} {response : LoginResponse} :
    openSession now record user left = (.ok (session, response), rest) ↔
      tokenLength ≤ left.length ∧ session = ⟨freshToken left, user, now⟩
        ∧ Envelope.pack now record.index record.serverSigning record.keys.serverToClient
            [Record.ofString (freshToken left)] (left.drop tokenLength)
          = (.ok response.d, rest) := by
  simp only [openSession, Drawing.bind_eq_ok_iff, Drawing.adapt_eq_ok_iff, Drawing.pure_eq_ok_iff,
    Entropy.draw_eq_ok_iff, Prod.mk.injEq]
  constructor
  · rintro ⟨_, _, ⟨hle, rfl, rfl⟩, _, _, hpack, ⟨rfl, rfl⟩, rfl⟩
    exact ⟨hle, rfl, hpack⟩
  · rintro ⟨hle, rfl, hpack⟩
    exact ⟨_, _, ⟨hle, rfl, rfl⟩, _, _, hpack, ⟨rfl, rfl⟩, rfl⟩

/-- What a login does with the record of its index. -/
def answerLogin (server : LoginServer) (now : Moment) (envelope : String) (record : PreKeyRecord) :
    ServerStep LoginResponse := do
  let user ← .ofExcept (server.readLogin now.wall record envelope)
  let (session, response) ← .ofDrawing (openSession now.wall record user)
  .onSessions fun store => ((), store.put session now.tick server.lifetimes.session)
  return response

theorem answerLogin_eq_ok_iff {now : Moment} {envelope : String} {record : PreKeyRecord}
    {response : LoginResponse} :
    server.answerLogin now envelope record s left = ((.ok response, s'), rest) ↔
      ∃ user session, server.readLogin now.wall record envelope = .ok user
        ∧ openSession now.wall record user left = (.ok (session, response), rest)
        ∧ s' = ⟨s.preKeys, s.sessions.put session now.tick server.lifetimes.session⟩ := by
  simp only [answerLogin, ServerStep.bind_eq_ok_iff, ServerStep.ofExcept_eq_iff,
    ServerStep.ofDrawing_eq_iff, ServerStep.onSessions_eq_iff, ServerStep.pure_eq_iff]
  constructor
  · rintro ⟨user, _, _, ⟨huser, rfl, rfl⟩, ⟨session, _⟩, _, _, ⟨hopen, rfl⟩, _, _, _,
      ⟨-, rfl, rfl⟩, hresponse, rfl, rfl⟩
    cases hresponse
    exact ⟨user, session, huser.symm, hopen, rfl⟩
  · rintro ⟨user, session, huser, hopen, rfl⟩
    exact ⟨user, _, _, ⟨huser.symm, rfl, rfl⟩, (session, response), _, _, ⟨hopen, rfl⟩, (), _, _,
      ⟨trivial, rfl, rfl⟩, rfl, rfl, rfl⟩

theorem state_of_answerLogin_eq_error {now : Moment} {envelope : String} {record : PreKeyRecord}
    {e : ProtocolError}
    (h : server.answerLogin now envelope record s left = ((.error e, s'), rest)) : s' = s := by
  simp only [answerLogin, ServerStep.bind_eq_iff, ServerStep.ofExcept_eq_iff,
    ServerStep.ofDrawing_eq_iff] at h
  rcases h with ⟨_, ⟨-, rfl, -⟩, -⟩ | ⟨_, _, _, ⟨-, rfl, rfl⟩, h⟩
  · rfl
  rcases h with ⟨_, ⟨-, rfl⟩, -⟩ | ⟨⟨session, response⟩, _, _, ⟨-, rfl⟩, h⟩
  · rfl
  rcases h with ⟨_, h, -⟩ | ⟨_, _, _, -, h⟩ <;> cases h

theorem login_of_missing {now : Moment} {request : LoginRequest}
    (h : request.i = "" ∨ request.d = "") :
    ∃ name, server.login now request s left = ((.error (.missingParameter name), s), left) := by
  by_cases hi : request.i = ""
  · refine ⟨"i", ServerStep.bind_eq_iff.2 (.inl ⟨_, ?_, rfl⟩)⟩
    exact ServerStep.ofExcept_eq_iff.2 ⟨by rw [hi]; rfl, rfl, rfl⟩
  · have hd : request.d = "" := h.resolve_left hi
    have hindex := (requireParameter_eq_ok_iff.2 ⟨hi, rfl⟩ : requireParameter _ "i" = _)
    refine ⟨"d", ServerStep.bind_eq_iff.2 (.inr ⟨request.i, s, left, ?_, ?_⟩)⟩
    · exact ServerStep.ofExcept_eq_iff.2 ⟨hindex.symm, rfl, rfl⟩
    · refine ServerStep.bind_eq_iff.2 (.inl ⟨_, ?_, rfl⟩)
      exact ServerStep.ofExcept_eq_iff.2 ⟨by rw [hd]; rfl, rfl, rfl⟩

/-- A login takes the record of its index out of the store, and goes on with it if there is one. -/
theorem login_apply {now : Moment} {request : LoginRequest} (hi : request.i ≠ "")
    (hd : request.d ≠ "") : server.login now request s left =
      match s.preKeys.live? request.i now.tick with
      | none => ((.error .preKeyNotFound, ⟨s.preKeys.erase request.i, s.sessions⟩), left)
      | some record => server.answerLogin now request.d record
          ⟨s.preKeys.erase request.i, s.sessions⟩ left := by
  have hindex := (requireParameter_eq_ok_iff.2 ⟨hi, rfl⟩ : requireParameter _ "i" = _)
  have henvelope := (requireParameter_eq_ok_iff.2 ⟨hd, rfl⟩ : requireParameter _ "d" = _)
  rw [login, hindex, henvelope, ServerStep.bind_apply, ServerStep.ofExcept_apply]
  dsimp only
  rw [ServerStep.bind_apply, ServerStep.ofExcept_apply]
  dsimp only
  rw [ServerStep.bind_apply, ServerStep.onPreKeys_apply]
  dsimp only [PreKeyStore.take]
  cases s.preKeys.live? request.i now.tick <;> rfl

theorem login_eq_ok_iff {now : Moment} {request : LoginRequest} {response : LoginResponse} :
    server.login now request s left = ((.ok response, s'), rest) ↔
      request.i ≠ "" ∧ request.d ≠ "" ∧ ∃ record user session,
        s.preKeys.live? request.i now.tick = some record
        ∧ server.readLogin now.wall record request.d = .ok user
        ∧ openSession now.wall record user left = (.ok (session, response), rest)
        ∧ s' = ⟨s.preKeys.erase request.i,
            s.sessions.put session now.tick server.lifetimes.session⟩ := by
  by_cases hmissing : request.i = "" ∨ request.d = ""
  · obtain ⟨_, he⟩ := @login_of_missing server s left now request hmissing
    refine iff_of_false (fun h => ?_) fun h => hmissing.elim h.1 h.2.1
    rw [he] at h
    cases h
  · obtain ⟨hi, hd⟩ := not_or.1 hmissing
    rw [login_apply hi hd]
    cases hlive : s.preKeys.live? request.i now.tick with
    | none =>
      refine iff_of_false (fun h => by cases h) ?_
      rintro ⟨-, -, _, _, _, h, -⟩
      cases h
    | some record =>
      dsimp only
      rw [answerLogin_eq_ok_iff]
      constructor
      · rintro ⟨user, session, huser, hopen, hstate⟩
        exact ⟨hi, hd, record, user, session, rfl, huser, hopen, hstate⟩
      · rintro ⟨-, -, _, user, session, h, huser, hopen, hstate⟩
        cases h
        exact ⟨user, session, huser, hopen, hstate⟩

theorem state_of_login_of_not_missing {now : Moment} {request : LoginRequest} {e : ProtocolError}
    (hi : request.i ≠ "") (hd : request.d ≠ "")
    (h : server.login now request s left = ((.error e, s'), rest)) :
    s' = ⟨s.preKeys.erase request.i, s.sessions⟩ := by
  rw [login_apply hi hd] at h
  cases hlive : s.preKeys.live? request.i now.tick with
  | none =>
    rw [hlive] at h
    cases h
    rfl
  | some record =>
    rw [hlive] at h
    exact state_of_answerLogin_eq_error h

/-- A login that fails leaves the sessions, and drops no pre-key but the one it names. -/
theorem state_of_login_eq_error {now : Moment} {request : LoginRequest} {e : ProtocolError}
    (h : server.login now request s left = ((.error e, s'), rest)) :
    s' = s ∨ s' = ⟨s.preKeys.erase request.i, s.sessions⟩ := by
  by_cases hmissing : request.i = "" ∨ request.d = ""
  · obtain ⟨_, he⟩ := @login_of_missing server s left now request hmissing
    rw [he] at h
    cases h
    exact .inl rfl
  · obtain ⟨hi, hd⟩ := not_or.1 hmissing
    exact .inr (state_of_login_of_not_missing hi hd h)

end LoginServer

end SealedLogin
