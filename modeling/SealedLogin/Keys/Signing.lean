import SealedLogin.Curve.Edwards
import SealedLogin.Curve.Montgomery
import SealedLogin.Hash.Sha512
import SealedLogin.Keys.Error
import SealedLogin.Text.Outline

/-!
# Signing keys

Ed25519 signatures. Verification is strict: keys and commitments of small order are refused, the
scalar must be below the order of the group, and the commitment is compared as it is encoded,
without the cofactor.
-/

namespace SealedLogin

/-- A public key for signatures, in its encoding. -/
structure VerifyingKey where
  bytes : Bytes
deriving DecidableEq, Inhabited

/-- A secret key for signatures, by its seed. -/
structure SigningIdentity where
  seed : Bytes
deriving DecidableEq, Inhabited

namespace SigningIdentity

open Curve

/-- An identity from a fresh seed of 32 bytes. -/
def generate : Drawing CryptoError SigningIdentity := do
  return ⟨← Entropy.drawKeyBytes 32⟩

/-- The secret scalar. -/
def scalar (id : SigningIdentity) : Nat := clamp ((Sha512.digest id.seed).take 32)

/-- The bytes that make the commitments of this identity unpredictable. -/
def mask (id : SigningIdentity) : Bytes := (Sha512.digest id.seed).drop 32

def publicKey (id : SigningIdentity) : VerifyingKey := ⟨(Point.base.smul id.scalar).encode⟩

/-- The public key in hexadecimal. -/
def publicHex (id : SigningIdentity) : String := Hex.encode id.publicKey.bytes

/-- The number that a digest stands for among the multiples of the base point. -/
def challenge (parts : List Bytes) : Nat :=
  Bytes.toNatLE (Sha512.digest parts.flatten) % groupOrder

/-- The signature of a message: the encoded commitment, then the scalar that answers it. -/
def sign (id : SigningIdentity) (m : Bytes) : Bytes :=
  let r := challenge [id.mask, m]
  let commitment := (Point.base.smul r).encode
  let k := challenge [commitment, id.publicKey.bytes, m]
  commitment ++ Bytes.ofNatLE 32 ((r + k * id.scalar) % groupOrder)

@[simp] theorem length_sign (id : SigningIdentity) (m : Bytes) : (id.sign m).length = 64 := by
  simp [sign]

/-- An identity shows its public key only. -/
def shown (id : SigningIdentity) : String :=
  Text.outline "SigningIdentity" [("public_key", Text.quote id.publicHex)] true

end SigningIdentity

namespace VerifyingKey

open Curve

/-- Whether commitment and scalar answer the challenge of the message. -/
def answers (key : VerifyingKey) (m commitment : Bytes) (s : Nat) : Bool :=
  match Point.decode key.bytes, Point.decode commitment with
  | some a, some r =>
      let k := SigningIdentity.challenge [commitment, key.bytes, m]
      !a.hasSmallOrder && !r.hasSmallOrder
        && ((Point.base.smul s).add (a.neg.smul k)).encode == commitment
  | _, _ => false

/-- Checks the signature of a message. -/
def verify (key : VerifyingKey) (m signature : Bytes) : Except SignatureFault Unit :=
  if signature.length ≠ 64 then .error (.badLength signature.length)
  else
    let s := Bytes.toNatLE (signature.drop 32)
    if groupOrder ≤ s then .error .scalarTooLarge
    else if key.answers m (signature.take 32) s then .ok ()
    else .error .mismatch

/-- The key of the given 32 bytes, which must encode a point. -/
def ofBytes (b : Bytes) : Except KeyFault VerifyingKey :=
  if b.length ≠ 32 then .error (.badLength .signing)
  else
    match Point.decode b with
    | none => .error .notOnCurve
    | some _ => .ok ⟨b⟩

/-- The key that a hexadecimal text spells. -/
def ofHex (text : String) : Except KeyFault VerifyingKey :=
  match Hex.decode text with
  | .error f => .error (.notHex .signing f)
  | .ok b => ofBytes b

/-- A key as diagnostics name it. -/
def toHex (key : VerifyingKey) : String := Hex.encode key.bytes

end VerifyingKey

end SealedLogin
