import SealedLogin.Keys.Signing
import SealedLogin.Proofs.Coding.Hex
import SealedLogin.Proofs.Hash.Numbers

/-!
# Signatures of honest owners

Whether a signature that was made by the rules verifies is a matter of the group, of which nothing
is proved here: `SigningIdentity.Vouches` is the assumption on the one message that is signed. It
comes down to one equation (`verify_sign_iff`), which `acceptsNat` computes on numbers for a fixed
key, seed and message.
-/

namespace SealedLogin

open Curve

namespace SigningIdentity

/-- The owner of a signing identity signs a message so that the signature verifies. -/
def Vouches (signer : SigningIdentity) (m : Bytes) : Prop :=
  signer.publicKey.verify m (signer.sign m) = .ok ()

/-- The encoded commitment of the signature of a message. -/
def commitment (signer : SigningIdentity) (m : Bytes) : Bytes :=
  (Point.base.smul (challenge [signer.mask, m])).encode

/-- The scalar of the signature of a message. -/
def response (signer : SigningIdentity) (m : Bytes) : Nat :=
  (challenge [signer.mask, m]
    + challenge [signer.commitment m, signer.publicKey.bytes, m] * signer.scalar) % groupOrder

theorem sign_eq (signer : SigningIdentity) (m : Bytes) :
    signer.sign m = signer.commitment m ++ Bytes.ofNatLE 32 (signer.response m) := rfl

/-- A signature made by the rules verifies under a key exactly if it answers the challenge. -/
theorem verify_sign_iff {key : VerifyingKey} {signer : SigningIdentity} {m : Bytes} :
    key.verify m (signer.sign m) = .ok () ↔
      key.answers m (signer.commitment m) (signer.response m) = true := by
  have hlt : signer.response m < groupOrder := Nat.mod_lt _ (by decide)
  have hlength : (signer.commitment m).length = 32 := Point.length_encode _
  have hscalar : Bytes.toNatLE (Bytes.ofNatLE 32 (signer.response m)) = signer.response m :=
    Bytes.toNatLE_ofNatLE _ _ (Nat.lt_trans hlt (by decide))
  rw [VerifyingKey.verify, if_neg (not_not_intro (signer.length_sign m)), sign_eq,
    List.take_left' hlength, List.drop_left' hlength, hscalar]
  dsimp only
  rw [if_neg (Nat.not_le.2 hlt)]
  split
  · next h => exact iff_of_true rfl h
  · next h => exact iff_of_false (fun hok => by cases hok) h

/-- The public key of an owner whose signature verifies is read back from its text. -/
theorem ofHex_publicHex {signer : SigningIdentity} {m : Bytes} (h : signer.Vouches m) :
    VerifyingKey.ofHex signer.publicHex = .ok signer.publicKey := by
  have hlength : ¬signer.publicKey.bytes.length ≠ 32 := not_not_intro (Point.length_encode _)
  rw [Vouches, verify_sign_iff, VerifyingKey.answers] at h
  rw [VerifyingKey.ofHex, publicHex, Hex.decode_encode]
  dsimp only
  rw [VerifyingKey.ofBytes, if_neg hlength]
  split at h
  · next hdecode _ => rw [hdecode]
  · cases h

/-- A key that is read from the text of a public key is that key. -/
theorem eq_publicKey_of_ofHex {signer : SigningIdentity} {key : VerifyingKey}
    (h : VerifyingKey.ofHex signer.publicHex = .ok key) : key = signer.publicKey := by
  rw [VerifyingKey.ofHex, publicHex, Hex.decode_encode] at h
  dsimp only at h
  rw [VerifyingKey.ofBytes] at h
  split at h
  · cases h
  · split at h
    · cases h
    · cases h
      rfl

theorem length_publicHex (signer : SigningIdentity) : signer.publicHex.length = 64 := by
  have hlength : signer.publicKey.bytes.length = 32 := Point.length_encode _
  rw [publicHex, Hex.length_encode, hlength]

theorem publicHex_ne_empty (signer : SigningIdentity) : signer.publicHex ≠ "" := by
  intro hempty
  have hlength := length_publicHex signer
  rw [hempty] at hlength
  exact absurd hlength (by decide)

/-! ### Computation on numbers -/

/-- Whether commitment and scalar answer the given challenge. -/
def answersChallenge (key commitment : Bytes) (k s : Nat) : Bool :=
  match Point.decode key, Point.decode commitment with
  | some a, some r =>
      !a.hasSmallOrder && !r.hasSmallOrder
        && ((Point.base.smul s).add (a.neg.smul k)).encode == commitment
  | _, _ => false

theorem answers_eq (key : VerifyingKey) (m commitment : Bytes) (s : Nat) :
    key.answers m commitment s
      = answersChallenge key.bytes commitment (challenge [commitment, key.bytes, m]) s := rfl

/-- `challenge`, computed on numbers. -/
def challengeNat (parts : List Bytes) : Nat :=
  Bytes.toNatLE (Sha512.digestNat parts.flatten) % groupOrder

/-- The public key from the digest of the seed. -/
def keyOfDigest (digest : Bytes) : Bytes := (Point.base.smul (clamp (digest.take 32))).encode

/-- The encoded commitment of the signature of a message, from the digest of the seed. -/
def commitmentNat (digest m : Bytes) : Bytes :=
  (Point.base.smul (challengeNat [digest.drop 32, m])).encode

/-- The challenge of a message, from the digest of the seed. -/
def messageChallenge (digest m : Bytes) : Nat :=
  challengeNat [commitmentNat digest m, keyOfDigest digest, m]

/-- The scalar of the signature of a message, from the digest of the seed. -/
def responseNat (digest m : Bytes) : Nat :=
  (challengeNat [digest.drop 32, m] + messageChallenge digest m * clamp (digest.take 32))
    % groupOrder

/-- Whether the signature of a message verifies under a key, computed on numbers from the digest of
the seed. -/
def acceptsNat (key digest m : Bytes) : Bool :=
  answersChallenge key (commitmentNat digest m) (challengeNat [commitmentNat digest m, key, m])
    (responseNat digest m)

theorem challenge_eq (parts : List Bytes) : challenge parts = challengeNat parts := by
  rw [challenge, Sha512.digest_eq, challengeNat]

theorem publicKey_eq (signer : SigningIdentity) :
    signer.publicKey = ⟨keyOfDigest (Sha512.digestNat signer.seed)⟩ := by
  rw [← Sha512.digest_eq]
  rfl

theorem commitment_eq (signer : SigningIdentity) (m : Bytes) :
    signer.commitment m = commitmentNat (Sha512.digestNat signer.seed) m := by
  rw [commitment, challenge_eq, mask, Sha512.digest_eq, commitmentNat]

theorem response_eq (signer : SigningIdentity) (m : Bytes) :
    signer.response m = responseNat (Sha512.digestNat signer.seed) m := by
  rw [response, challenge_eq, challenge_eq, commitment_eq, publicKey_eq, mask, scalar,
    Sha512.digest_eq, responseNat, messageChallenge]

theorem verify_sign_iff_acceptsNat {key : VerifyingKey} {signer : SigningIdentity} {m : Bytes} :
    key.verify m (signer.sign m) = .ok () ↔
      acceptsNat key.bytes (Sha512.digestNat signer.seed) m = true := by
  rw [verify_sign_iff, answers_eq, challenge_eq, commitment_eq, response_eq, acceptsNat]

theorem vouches_iff_acceptsNat {signer : SigningIdentity} {m : Bytes} : signer.Vouches m ↔
    acceptsNat (keyOfDigest (Sha512.digestNat signer.seed)) (Sha512.digestNat signer.seed) m
      = true := by
  rw [Vouches, verify_sign_iff_acceptsNat, publicKey_eq]

end SigningIdentity

end SealedLogin
