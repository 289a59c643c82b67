import SealedLogin.Bytes.Hex
import SealedLogin.Cipher.Chain
import SealedLogin.Entropy

/-!
# Failures of the cryptographic operations

`CryptoError` has one constructor for every kind of operation that can fail, each with its causes.
-/

namespace SealedLogin

/-- Why a signature was refused. -/
inductive SignatureFault where
  /-- The signature does not have 64 bytes. -/
  | badLength (length : Nat)
  /-- The scalar is not below the order of the group. -/
  | scalarTooLarge
  /-- The signature does not belong to the message and the key. -/
  | mismatch
  /-- The reason given by another verifier. -/
  | described (reason : String)
deriving DecidableEq, Repr

def SignatureFault.message : SignatureFault → String
  | .badLength length => s!"signature must be 64 bytes, got {length}"
  | .scalarTooLarge => "signature error: Cannot use scalar with high-bit set"
  | .mismatch => "signature error: Verification equation was not satisfied"
  | .described reason => reason

/-- The two kinds of public keys. -/
inductive Curve25519 where
  | signing
  | exchange
deriving DecidableEq, Repr

/-- The name of the scheme that a kind of key is for. -/
def Curve25519.scheme : Curve25519 → String
  | .signing => "Ed25519"
  | .exchange => "X25519"

/-- Why bytes or text are no key. -/
inductive KeyFault where
  /-- A symmetric key does not have 32 bytes. -/
  | badSymmetricLength (length : Nat)
  /-- The text of a public key is not hexadecimal. -/
  | notHex (kind : Curve25519) (fault : Hex.Fault)
  /-- A public key does not have 32 bytes. -/
  | badLength (kind : Curve25519)
  /-- The bytes of a signing key encode no point. -/
  | notOnCurve
  /-- The reason given by another reader. -/
  | described (reason : String)
deriving DecidableEq, Repr

def KeyFault.message : KeyFault → String
  | .badSymmetricLength length => s!"AES-256 key must be 32 bytes, got {length}"
  | .notHex kind fault => "invalid " ++ kind.scheme ++ " public key hex: " ++ fault.message
  | .badLength kind => kind.scheme ++ " public key must be 32 bytes"
  | .notOnCurve =>
      "invalid Ed25519 public key: signature error: Cannot decompress Edwards point"
  | .described reason => reason

/-- Why two keys did not agree on a secret. -/
inductive AgreementFault where
  /-- The secret would have been the same for every key of this side. -/
  | nonContributory
  /-- The reason given by another exchange. -/
  | described (reason : String)
deriving DecidableEq, Repr

def AgreementFault.message : AgreementFault → String
  | .nonContributory => "peer public key produced a non-contributory shared secret"
  | .described reason => reason

/-- A failed cryptographic operation. -/
inductive CryptoError where
  | randomUnavailable (fault : Entropy.Fault)
  | verification (fault : SignatureFault)
  | encryption (reason : String)
  | decryption (fault : Chain.Fault)
  | invalidKey (fault : KeyFault)
  | keyAgreement (fault : AgreementFault)
deriving DecidableEq, Repr

/-- The wording of a failure. -/
def CryptoError.message : CryptoError → String
  | .randomUnavailable fault => "secure random source unavailable: " ++ fault.message
  | .verification fault => "verification failed: " ++ fault.message
  | .encryption reason => "encryption failed: " ++ reason
  | .decryption fault => "decryption failed: " ++ fault.message
  | .invalidKey fault => "invalid key material: " ++ fault.message
  | .keyAgreement fault => "key agreement failed: " ++ fault.message

/-- Random bytes for a cryptographic operation. -/
def Entropy.drawKeyBytes (n : Nat) : Drawing CryptoError Bytes :=
  (Entropy.draw n).adapt .randomUnavailable

end SealedLogin
