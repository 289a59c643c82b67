import SealedLogin.Keys.Error

/-!
# Symmetric keys

A key of 32 bytes for AES-256 in chained mode. Every encryption draws a fresh initialization vector
and puts it in front.
-/

namespace SealedLogin

/-- A key of 32 bytes. -/
structure SymmetricKey where
  bytes : Bytes
  length_eq : bytes.length = 32
deriving DecidableEq

namespace SymmetricKey

instance : Inhabited SymmetricKey := ⟨⟨List.replicate 32 0, by simp⟩⟩

def ofBytes (b : Bytes) : Except KeyFault SymmetricKey :=
  if h : b.length = 32 then .ok ⟨b, h⟩ else .error (.badSymmetricLength b.length)

/-- The message encrypted under the given initialization vector, which comes first. -/
def encryptFrom (key : SymmetricKey) (iv m : Bytes) : Bytes :=
  let keys := Aes.expandKey key.bytes
  Chain.encrypt (Aes.encryptWith keys) iv m

/-- The message encrypted under a fresh initialization vector of sixteen bytes. -/
def encrypt (key : SymmetricKey) (m : Bytes) : Drawing CryptoError Bytes := do
  let iv ← Entropy.drawKeyBytes 16
  return key.encryptFrom iv m

/-- The message of an encrypted byte string. -/
def decrypt (key : SymmetricKey) (data : Bytes) : Except Chain.Fault Bytes :=
  let keys := Aes.expandKey key.bytes
  Chain.decrypt (Aes.decryptWith keys) data

/-- A key shows nothing of itself. -/
def shown (_ : SymmetricKey) : String := "SymmetricKey(..)"

end SymmetricKey

end SealedLogin
