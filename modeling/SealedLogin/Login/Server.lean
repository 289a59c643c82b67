import SealedLogin.Envelope
import SealedLogin.Login.Message
import SealedLogin.Store.PreKeys
import SealedLogin.Store.Sessions

/-!
# The server's side of a login

In the first round the server answers a client's public keys with its own and keeps the agreed keys
under a fresh index (`LoginServer.issuePreKey`). In the second round it opens the client's envelope
with what it kept and answers with a sealed session token (`LoginServer.login`). The token stands
for the session from then on (`resolve`, `logout`).

A failed step keeps what it had changed before it failed: a login takes the record of its index out
of the store before it looks at the envelope, so that an index serves one login, whatever comes of
it.
-/

namespace SealedLogin

/-- How far the stamp of an envelope may be off, and how long pre-keys and sessions last. -/
structure Lifetimes where
  envelope : Duration
  preKey : Duration
  session : Duration
deriving DecidableEq, Repr

/-- Five minutes for envelopes and pre-keys, an hour for sessions. -/
def Lifetimes.standard : Lifetimes :=
  ⟨Envelope.defaultTtl, Duration.ofSeconds 300, Duration.ofSeconds 3600⟩

instance : Inhabited Lifetimes := ⟨Lifetimes.standard⟩

/-- The readings of both clocks at one moment. -/
structure Moment where
  wall : Instant
  tick : Tick
deriving DecidableEq, Repr, Inhabited

/-- What a server keeps between calls. -/
structure ServerState where
  preKeys : PreKeyStore
  sessions : SessionStore
deriving Inhabited

namespace ServerState

/-- The state of a server that has not been called. -/
def empty : ServerState := ⟨.empty, .empty⟩

/-- Without the pre-keys and sessions that have expired. -/
def purge (s : ServerState) (now : Tick) : ServerState :=
  ⟨s.preKeys.purge now, s.sessions.purge now⟩

/-- How many pre-keys and sessions a purge removes. -/
def expiredCounts (s : ServerState) (now : Tick) : Nat × Nat :=
  (s.preKeys.expiredCount now, s.sessions.expiredCount now)

end ServerState

/-- A call to the server. It may draw random bytes, change what the server keeps, and fail; what was
drawn and changed before a failure stays so. -/
abbrev ServerStep (α : Type) := ExceptT ProtocolError (StateT ServerState (StateM Entropy)) α

namespace ServerStep

/-- A computation that draws but leaves what the server keeps alone. -/
def ofDrawing {α : Type} (d : Drawing ProtocolError α) : ServerStep α :=
  fun s left =>
    let (result, left) := d left
    ((result, s), left)

/-- A result that needs neither. -/
def ofExcept {α : Type} (result : Except ProtocolError α) : ServerStep α :=
  .ofDrawing (.ofExcept result)

/-- Uses the store of pre-keys. -/
def onPreKeys {α : Type} (f : PreKeyStore → α × PreKeyStore) : ServerStep α :=
  fun s left =>
    let (a, preKeys) := f s.preKeys
    ((.ok a, { s with preKeys := preKeys }), left)

/-- Uses the store of sessions. -/
def onSessions {α : Type} (f : SessionStore → α × SessionStore) : ServerStep α :=
  fun s left =>
    let (a, sessions) := f s.sessions
    ((.ok a, { s with sessions := sessions }), left)

end ServerStep

/-- The public keys of a client. -/
structure ClientKeys where
  signing : VerifyingKey
  exchange1 : ExchangeKey
  exchange2 : ExchangeKey
deriving DecidableEq, Inhabited

/-- The keys in a request. All three must be there before any of them is read. -/
def PreKeyRequest.keys (r : PreKeyRequest) : Except ProtocolError ClientKeys := do
  let a0 ← requireParameter r.a0 "a0"
  let a1 ← requireParameter r.a1 "a1"
  let a2 ← requireParameter r.a2 "a2"
  let signing ← ProtocolError.ofKey (VerifyingKey.ofHex a0)
  let exchange1 ← ProtocolError.ofKey (ExchangeKey.ofHex a1)
  let exchange2 ← ProtocolError.ofKey (ExchangeKey.ofHex a2)
  .ok ⟨signing, exchange1, exchange2⟩

/-- A server: who may log in, and how long things last. -/
structure LoginServer where
  authenticate : Authenticator
  lifetimes : Lifetimes

namespace LoginServer

/-- The start of every index that a server hands out. -/
def indexHead : String := "PREKEY_"

/-- The number of random bytes in a session token. -/
def tokenLength : Nat := 64

/-- The record and the answer for a client's keys under an index, from fresh key material. -/
def answerPreKey (server : LoginServer) (index : String) (client : ClientKeys) :
    Drawing ProtocolError (PreKeyRecord × PreKeyResponse) := do
  let material ← SessionKeyMaterial.generate.adapt ProtocolError.ofCrypto
  let agreed := (material.derive client.exchange1 client.exchange2).mapError
    fun fault => ProtocolError.ofCrypto (.keyAgreement fault)
  let keys ← .ofExcept agreed
  let bundle := material.bundle
  return (⟨index, client.signing, material.signing, keys⟩,
    ⟨index, bundle.signing, bundle.exchange1, bundle.exchange2, server.lifetimes.preKey.seconds⟩)

/-- The first round: agrees on keys with a client and keeps them under a fresh index, made from an
identifier that was never used before. -/
def issuePreKey (server : LoginServer) (now : Tick) (identifier : String)
    (request : PreKeyRequest) : ServerStep PreKeyResponse := do
  let client ← .ofExcept request.keys
  let (record, response) ← .ofDrawing (server.answerPreKey (indexHead ++ identifier) client)
  .onPreKeys fun store => ((), store.put record now server.lifetimes.preKey)
  return response

/-- The user whose credentials an envelope carries, if the envelope opens and the credentials are
right. -/
def readLogin (server : LoginServer) (now : Instant) (record : PreKeyRecord) (envelope : String) :
    Except ProtocolError AuthenticatedUser := do
  let payloads ← Envelope.unpack now record.index record.clientSigningKey record.keys.clientToServer
    server.lifetimes.envelope envelope
  let attempt ← LoginAttempt.ofPayloads payloads
  match ← server.authenticate attempt with
  | some user => .ok user
  | none => .error .invalidCredential

/-- A session with a fresh token for a user, and the answer that carries the token. -/
def openSession (now : Instant) (record : PreKeyRecord) (user : AuthenticatedUser) :
    Drawing ProtocolError (SessionRecord × LoginResponse) := do
  let secret ← (Entropy.draw tokenLength).adapt .randomUnavailable
  let token := Hex.encode secret
  let reply ← Envelope.pack now record.index record.serverSigning record.keys.serverToClient
    [Record.ofString token]
  return (⟨token, user, now⟩, ⟨reply⟩)

/-- The second round: takes the record of the index, checks the credentials, and answers with the
token of a new session. -/
def login (server : LoginServer) (now : Moment) (request : LoginRequest) :
    ServerStep LoginResponse := do
  let index ← .ofExcept (requireParameter request.i "i")
  let envelope ← .ofExcept (requireParameter request.d "d")
  match ← .onPreKeys fun store => store.take index now.tick with
  | none => throw .preKeyNotFound
  | some record =>
      let user ← .ofExcept (server.readLogin now.wall record envelope)
      let (session, response) ← .ofDrawing (openSession now.wall record user)
      .onSessions fun store => ((), store.put session now.tick server.lifetimes.session)
      return response

/-- Ends the session of a token. -/
def logout (now : Tick) (token : String) : ServerStep Unit := do
  let token ← .ofExcept (requireParameter token "token")
  if ← .onSessions fun store => store.invalidate token now then return ()
  else throw .sessionNotFound

/-- The session of a token, which is renewed by this use. -/
def resolve (server : LoginServer) (now : Tick) (token : String) : ServerStep SessionRecord := do
  let token ← .ofExcept (requireParameter token "token")
  match ← .onSessions fun store => store.touch token now server.lifetimes.session with
  | some session => return session
  | none => throw .sessionNotFound

/-- Drops what has expired and tells how many pre-keys and sessions that were. -/
def purge (now : Tick) : ServerStep (Nat × Nat) := fun s left =>
  ((.ok (s.expiredCounts now), s.purge now), left)

end LoginServer

end SealedLogin
