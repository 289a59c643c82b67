import SealedLogin.Proofs.Keys.Signatures
import SealedLogin.Proofs.Computations
import SealedLogin.Keys.Session

/-!
# Key material

The secrets of one side are the first 96 bytes of its entropy (`generate_eq_ok_iff`). Two sides
derive the same keys if each two of their pairs agree (`deriveWith_comm`); that they do is a matter
of the curve, of which nothing is proved here (`ExchangeKeyPair.Commutes`).
-/

namespace SealedLogin

namespace ExchangeKeyPair

/-- What two pairs agree on does not depend on the side. -/
def Commutes (a b : ExchangeKeyPair) : Prop := a.agree b.publicKey = b.agree a.publicKey

theorem ofHex_publicHex (pair : ExchangeKeyPair) :
    ExchangeKey.ofHex pair.publicHex = .ok pair.publicKey := by
  rw [ExchangeKey.ofHex, publicHex, Hex.decode_encode]
  exact if_pos (Curve.Montgomery.length_shared _ _)

theorem length_publicHex (pair : ExchangeKeyPair) : pair.publicHex.length = 64 := by
  rw [publicHex, Hex.length_encode]
  simp [publicKey]

theorem publicHex_ne_empty (pair : ExchangeKeyPair) : pair.publicHex ≠ "" := by
  intro hempty
  have hlength := length_publicHex pair
  rw [hempty] at hlength
  exact absurd hlength (by decide)

theorem generate_eq_ok_iff {pair : ExchangeKeyPair} {left rest : Entropy} :
    generate left = (.ok pair, rest) ↔
      32 ≤ left.length ∧ pair = ⟨left.take 32⟩ ∧ rest = left.drop 32 :=
  Entropy.drawKeyBytes_map_eq_ok_iff

end ExchangeKeyPair

theorem SigningIdentity.generate_eq_ok_iff {signer : SigningIdentity} {left rest : Entropy} :
    generate left = (.ok signer, rest) ↔
      32 ≤ left.length ∧ signer = ⟨left.take 32⟩ ∧ rest = left.drop 32 :=
  Entropy.drawKeyBytes_map_eq_ok_iff

namespace SessionKeyMaterial

/-- The number of random bytes that the secrets of one side take. -/
def entropyLength : Nat := 96

/-- The secrets that are made from the front of the given bytes. -/
def ofEntropy (left : Entropy) : SessionKeyMaterial :=
  ⟨⟨left.take 32⟩, ⟨(left.drop 32).take 32⟩, ⟨(left.drop 64).take 32⟩⟩

theorem generate_eq_ok_iff {m : SessionKeyMaterial} {left rest : Entropy} :
    generate left = (.ok m, rest) ↔
      entropyLength ≤ left.length ∧ m = ofEntropy left ∧ rest = left.drop entropyLength := by
  simp only [generate, Drawing.bind_eq_ok_iff, SigningIdentity.generate_eq_ok_iff,
    ExchangeKeyPair.generate_eq_ok_iff, Drawing.pure_eq_ok_iff]
  constructor
  · rintro ⟨_, _, ⟨-, rfl, rfl⟩, _, _, ⟨-, rfl, rfl⟩, _, _, ⟨hle, rfl, rfl⟩, rfl, rfl⟩
    rw [List.drop_drop, List.drop_drop]
    rw [List.drop_drop, List.length_drop] at hle
    refine ⟨?_, rfl, rfl⟩
    show 96 ≤ _
    omega
  · rintro ⟨hle, rfl, rfl⟩
    have hle96 : 96 ≤ left.length := hle
    refine ⟨_, _, ⟨by omega, rfl, rfl⟩, _, _, ⟨?_, rfl, rfl⟩, _, _, ⟨?_, rfl, rfl⟩, ?_, ?_⟩
    · rw [List.length_drop]
      omega
    · rw [List.drop_drop, List.length_drop]
      omega
    · rw [List.drop_drop]
      rfl
    · rw [List.drop_drop, List.drop_drop]
      rfl

variable {a b m : SessionKeyMaterial} {peer1 peer2 : ExchangeKey} {keys keys' : DirectionalKeys}

/-- Both pairs of the two sides agree. -/
def Commutes (a b : SessionKeyMaterial) : Prop :=
  a.exchange1.Commutes b.exchange1 ∧ a.exchange2.Commutes b.exchange2

/-- What one side derives from the public keys of another one. -/
def deriveWith (a b : SessionKeyMaterial) : Except AgreementFault DirectionalKeys :=
  a.derive b.exchange1.publicKey b.exchange2.publicKey

theorem derive_eq_ok_iff : m.derive peer1 peer2 = .ok keys ↔
    m.exchange1.agree peer1 = .ok keys.clientToServer
      ∧ m.exchange2.agree peer2 = .ok keys.serverToClient := by
  simp only [derive, bind_eq_ok_iff]
  constructor
  · rintro ⟨key1, h1, key2, h2, h⟩
    cases h
    exact ⟨h1, h2⟩
  · rintro ⟨h1, h2⟩
    exact ⟨_, h1, _, h2, rfl⟩

theorem deriveWith_comm (h : a.Commutes b) : a.deriveWith b = b.deriveWith a := by
  rw [deriveWith, deriveWith, derive, derive, h.1, h.2]

end SessionKeyMaterial

end SealedLogin
