import SealedLogin.Keys.Exchange
import SealedLogin.Keys.Signing

/-!
# Key material of one login

Each side of a login owns a signing identity and two exchange pairs. The first pairs of both sides
agree on the key for what the client sends, the second pairs on the key for what the server sends.
-/

namespace SealedLogin

/-- The secrets of one side. -/
structure SessionKeyMaterial where
  signing : SigningIdentity
  exchange1 : ExchangeKeyPair
  exchange2 : ExchangeKeyPair
deriving DecidableEq, Inhabited

/-- The public keys of one side, in hexadecimal. -/
structure PublicKeyBundle where
  signing : String
  exchange1 : String
  exchange2 : String
deriving DecidableEq, Repr, Inhabited

/-- The two agreed keys, by the direction of what they encrypt. -/
structure DirectionalKeys where
  clientToServer : SymmetricKey
  serverToClient : SymmetricKey
deriving DecidableEq, Inhabited

/-- A bundle in full. -/
def PublicKeyBundle.shown (b : PublicKeyBundle) : String :=
  Text.outline "PublicKeyBundle"
    [("signing", Text.quote b.signing), ("exchange_1", Text.quote b.exchange1),
      ("exchange_2", Text.quote b.exchange2)] false

/-- The agreed keys show nothing of themselves. -/
def DirectionalKeys.shown (k : DirectionalKeys) : String :=
  Text.outline "DirectionalKeys"
    [("client_to_server", k.clientToServer.shown), ("server_to_client", k.serverToClient.shown)]
    false

namespace SessionKeyMaterial

/-- Fresh secrets: the seed of the identity is drawn first, then both exchange secrets. -/
def generate : Drawing CryptoError SessionKeyMaterial := do
  let signing ← SigningIdentity.generate
  let exchange1 ← ExchangeKeyPair.generate
  let exchange2 ← ExchangeKeyPair.generate
  return ⟨signing, exchange1, exchange2⟩

/-- The public keys. -/
def bundle (m : SessionKeyMaterial) : PublicKeyBundle :=
  ⟨m.signing.publicHex, m.exchange1.publicHex, m.exchange2.publicHex⟩

/-- The keys agreed with the owner of two public exchange keys. -/
def derive (m : SessionKeyMaterial) (peer1 peer2 : ExchangeKey) :
    Except AgreementFault DirectionalKeys := do
  return ⟨← m.exchange1.agree peer1, ← m.exchange2.agree peer2⟩

/-- The keys agreed with the owner of a bundle; both keys are read before either is agreed on. -/
def deriveFrom (m : SessionKeyMaterial) (peer : PublicKeyBundle) :
    Except CryptoError DirectionalKeys := do
  let peer1 ← (ExchangeKey.ofHex peer.exchange1).mapError .invalidKey
  let peer2 ← (ExchangeKey.ofHex peer.exchange2).mapError .invalidKey
  (m.derive peer1 peer2).mapError .keyAgreement

/-- The secrets show their public keys only. -/
def shown (m : SessionKeyMaterial) : String :=
  Text.outline "SessionKeyMaterial" [("public", m.bundle.shown)] true

end SessionKeyMaterial

end SealedLogin
