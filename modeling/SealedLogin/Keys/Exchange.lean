import SealedLogin.Curve.Montgomery
import SealedLogin.Keys.Symmetric
import SealedLogin.Text.Outline

/-!
# Key exchange

X25519 key pairs. Two sides that hold each other's public key agree on a symmetric key; a public key
that would make the secret zero is refused.
-/

namespace SealedLogin

/-- A public key for key exchange. -/
structure ExchangeKey where
  bytes : Bytes
deriving DecidableEq, Inhabited

/-- The key that a hexadecimal text spells. -/
def ExchangeKey.ofHex (text : String) : Except KeyFault ExchangeKey :=
  match Hex.decode text with
  | .error f => .error (.notHex .exchange f)
  | .ok b => if b.length = 32 then .ok ⟨b⟩ else .error (.badLength .exchange)

/-- A key pair for key exchange, by its secret. -/
structure ExchangeKeyPair where
  secret : Bytes
deriving DecidableEq, Inhabited

namespace ExchangeKeyPair

open Curve

/-- A pair from a fresh secret of 32 bytes. -/
def generate : Drawing CryptoError ExchangeKeyPair := do
  return ⟨← Entropy.drawKeyBytes 32⟩

def publicKey (pair : ExchangeKeyPair) : ExchangeKey :=
  ⟨Montgomery.shared pair.secret Montgomery.base⟩

/-- The public key in hexadecimal. -/
def publicHex (pair : ExchangeKeyPair) : String := Hex.encode pair.publicKey.bytes

/-- The symmetric key shared with the owner of a public key. -/
def agree (pair : ExchangeKeyPair) (peer : ExchangeKey) : Except AgreementFault SymmetricKey :=
  let secret : SymmetricKey := ⟨Montgomery.shared pair.secret peer.bytes, by simp⟩
  if secret.bytes.all (· == 0) then .error .nonContributory else .ok secret

/-- A pair shows its public key only. -/
def shown (pair : ExchangeKeyPair) : String :=
  Text.outline "ExchangeKeyPair" [("public_key", Text.quote pair.publicHex)] true

end ExchangeKeyPair

end SealedLogin
