import SealedLogin.Envelope
import SealedLogin.Login.Credentials
import SealedLogin.Login.Message

/-!
# The client's side of a login

A login passes through four states, each a type of its own: `PreKeySent` holds fresh secrets,
`KeysDerived` the keys agreed with the server, `LoginSent` what is needed to open the answer, and
`EstablishedSession` the token. Each step consumes its state, so after a failed step the login
starts again from fresh secrets.
-/

namespace SealedLogin

/-- The public keys have been sent. -/
structure PreKeySent where
  material : SessionKeyMaterial
deriving Inhabited

/-- The keys are agreed. -/
structure KeysDerived where
  index : String
  signing : SigningIdentity
  serverSigningKey : VerifyingKey
  keys : DirectionalKeys
deriving Inhabited

/-- The credentials have been sent. -/
structure LoginSent where
  index : String
  serverSigningKey : VerifyingKey
  serverToClient : SymmetricKey
deriving Inhabited

/-- The server has answered with a token. -/
structure EstablishedSession where
  index : String
  token : String
deriving DecidableEq, Repr, Inhabited

namespace PreKeySent

/-- A login that begins, with fresh secrets. -/
def start : Drawing ProtocolError PreKeySent := do
  return ⟨← SessionKeyMaterial.generate.adapt ProtocolError.ofCrypto⟩

/-- The request of the first round. -/
def request (s : PreKeySent) : PreKeyRequest :=
  let bundle := s.material.bundle
  ⟨bundle.signing, bundle.exchange1, bundle.exchange2⟩

/-- Agrees on keys with the server that gave the response. A field must be there when it is read. -/
def deriveKeys (s : PreKeySent) (response : PreKeyResponse) : Except ProtocolError KeysDerived := do
  let index ← requireParameter response.i "i"
  let serverSigningKey ←
    ProtocolError.ofKey (VerifyingKey.ofHex (← requireParameter response.b0 "b0"))
  let exchange1 ← ProtocolError.ofKey (ExchangeKey.ofHex (← requireParameter response.b1 "b1"))
  let exchange2 ← ProtocolError.ofKey (ExchangeKey.ofHex (← requireParameter response.b2 "b2"))
  let keys ← (s.material.derive exchange1 exchange2).mapError
    fun fault => ProtocolError.ofCrypto (.keyAgreement fault)
  .ok ⟨index, s.material.signing, serverSigningKey, keys⟩

/-- The state shows public keys only. -/
def shown (s : PreKeySent) : String :=
  Text.outline "PreKeySent" [("material", s.material.shown)] false

end PreKeySent

/-- Seals the credentials for the server. -/
def KeysDerived.login (s : KeysDerived) (now : Instant) (credentials : Credentials) :
    Drawing ProtocolError (LoginSent × LoginRequest) := do
  let envelope ← Envelope.pack now s.index s.signing s.keys.clientToServer credentials.payloads
  return (⟨s.index, s.serverSigningKey, s.keys.serverToClient⟩, ⟨s.index, envelope⟩)

/-- The token that the payloads of an answer carry. -/
def LoginSent.token : List Record → Except ProtocolError String
  | [payload] => do
      let token ← ProtocolError.ofRead payload.text
      requireParameter token "token"
  | payloads => .error (.decode (.replyCount payloads.length))

/-- Opens the answer of the server, within the given window of freshness. -/
def LoginSent.finish (s : LoginSent) (now : Instant) (response : LoginResponse) (ttl : Duration) :
    Except ProtocolError EstablishedSession := do
  let envelope ← requireParameter response.d "d"
  let payloads ← Envelope.unpack now s.index s.serverSigningKey s.serverToClient ttl envelope
  let token ← LoginSent.token payloads
  .ok ⟨s.index, token⟩

namespace EstablishedSession

/-- How the token is presented in a request for the session. -/
def bearer (s : EstablishedSession) : String := "Bearer " ++ s.token

/-- The session shows its index only. -/
def shown (s : EstablishedSession) : String :=
  Text.outline "EstablishedSession" [("index", Text.quote s.index)] true

end EstablishedSession

end SealedLogin
