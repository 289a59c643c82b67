import SealedLogin.Proofs.Cipher.Chaining
import SealedLogin.Proofs.Computations

/-!
# Ciphertexts have one spelling

What a byte string of whole blocks decrypts to is said here block by block, from the places of the
string alone: block `i + 1` is decrypted and combined with block `i` as it stands (`body`). A string
decrypts exactly if it is long enough and its body is a message with padding behind it
(`decrypt_eq_ok_iff`), and encrypting this message under the first block gives back the string
(`encrypt_of_decrypt`). Nothing is lost in either direction, so that under one key and one
initialization vector messages and ciphertexts correspond one to one
(`SymmetricKey.ciphertexts_canonical`).
-/

namespace SealedLogin

namespace Chain

/-! ### Padding -/

/-- The bytes are a message and, behind it, from one to sixteen bytes that each are their number. -/
def Padded (m b : Bytes) : Prop :=
  ∃ n, 1 ≤ n ∧ n ≤ 16 ∧ b = m ++ List.replicate n (UInt8.ofNat n)

theorem padded_of_unpad {m b : Bytes} (h : unpad b = some m) : Padded m b := by
  unfold unpad at h
  split at h
  · cases h
  · next n more hreverse =>
    split at h
    · next hn =>
      simp only [Bool.and_eq_true, decide_eq_true_eq, UInt8.le_iff_toNat_le, UInt8.reduceToNat,
        List.all_eq_true, beq_iff_eq] at hn
      obtain ⟨⟨⟨hone, hsixteen⟩, hle⟩, hall⟩ := hn
      cases h
      have htail : b.drop (b.length - n.toNat) = List.replicate n.toNat n := by
        rw [List.eq_replicate_iff, List.length_drop]
        refine ⟨by omega, fun x hx => hall x ?_⟩
        rw [List.take_reverse, List.mem_reverse]
        exact hx
      refine ⟨n.toNat, hone, hsixteen, ?_⟩
      rw [UInt8.ofNat_toNat, ← htail, List.take_append_drop]
    · cases h

theorem unpad_eq_some_iff {m b : Bytes} : unpad b = some m ↔ Padded m b := by
  refine ⟨padded_of_unpad, ?_⟩
  rintro ⟨n, hone, hsixteen, rfl⟩
  exact unpad_append_replicate m ⟨hone, hsixteen⟩

/-- Whole blocks are padded in the only way that fills them up. -/
theorem pad_eq_of_padded {m b : Bytes} (h : Padded m b) (hb : 16 ∣ b.length) : pad m = b := by
  obtain ⟨n, hone, hsixteen, rfl⟩ := h
  rw [List.length_append, List.length_replicate] at hb
  have hn : 16 - m.length % 16 = n := by omega
  rw [pad, hn]

/-! ### Blocks -/

/-- The block at a place of a byte string. -/
def blockAt (b : Bytes) (i : Nat) : Block := Block.ofBytes ((b.drop (16 * i)).take 16)

/-- What the blocks behind the first one stand for: each is decrypted and combined with the block
before it. -/
def body (D : Block → Block) (data : Bytes) : Bytes :=
  (List.range (data.length / 16 - 1)).flatMap fun i =>
    ((D (blockAt data (i + 1))).xor (blockAt data i)).toBytes

theorem blockAt_drop (b : Bytes) (i : Nat) : blockAt (b.drop 16) i = blockAt b (i + 1) := by
  unfold blockAt
  rw [List.drop_drop, Nat.mul_succ, Nat.add_comm]

theorem blocks_eq_cons {b : Bytes} (h : 16 ≤ b.length) :
    blocks b = Block.ofBytes (b.take 16) :: blocks (b.drop 16) := by
  have htake : (b.take 16).length = 16 := by simp; omega
  unfold blocks
  conv => lhs; rw [← List.take_append_drop 16 b, Bytes.chunks_append (by decide) htake]
  rfl

/-- Chained decryption of the blocks behind the first one is their body. -/
theorem bytes_decryptBlocks (D : Block → Block) (k : Nat) {data : Bytes}
    (h : data.length = 16 * (k + 1)) :
    bytes (decryptBlocks D (Block.ofBytes (data.take 16)) (blocks (data.drop 16)))
      = body D data := by
  induction k generalizing data with
  | zero =>
    have hnil : data.drop 16 = [] := List.drop_eq_nil_of_le (by omega)
    have hcount : data.length / 16 - 1 = 0 := by omega
    rw [hnil, blocks, Bytes.chunks_nil, body, hcount]
    rfl
  | succ k ih =>
    have hdrop : (data.drop 16).length = 16 * (k + 1) := by
      rw [List.length_drop]
      omega
    have hcount : data.length / 16 - 1 = (data.drop 16).length / 16 - 1 + 1 := by omega
    rw [blocks_eq_cons (by omega), decryptBlocks, bytes_cons, ih hdrop, body, body, hcount,
      List.range_succ_eq_map, List.flatMap_cons, List.flatMap_map]
    simp only [blockAt_drop]
    rfl

/-! ### Messages -/

section

variable {E D : Block → Block}

theorem encryptBlocks_decryptBlocks (h : ∀ s, E (D s) = s) (previous : Block) (cs : List Block) :
    encryptBlocks E previous (decryptBlocks D previous cs) = cs := by
  induction cs generalizing previous with
  | nil => rfl
  | cons c cs ih => rw [decryptBlocks, encryptBlocks, Block.xor_xor_cancel, h, ih]

/-- A string decrypts to a message exactly if it is an initialization vector and whole blocks whose
body is that message, padded. -/
theorem decrypt_eq_ok_iff {data m : Bytes} : decrypt D data = .ok m ↔
    16 ∣ data.length ∧ 32 ≤ data.length ∧ Padded m (body D data) := by
  unfold decrypt
  split
  · next hbad =>
    refine iff_of_false (by simp) ?_
    rintro ⟨hdvd, hle, -⟩
    omega
  · next hgood =>
    have hlength : data.length = 16 * (data.length / 16 - 1 + 1) := by omega
    rw [← unpad_eq_some_iff, ← bytes_decryptBlocks D _ hlength]
    have hdvd : 16 ∣ data.length := ⟨_, hlength⟩
    have hle : 32 ≤ data.length := by omega
    dsimp only
    cases unpad (bytes (decryptBlocks D (Block.ofBytes (data.take 16)) (blocks (data.drop 16))))
    · simp
    · simp [hdvd, hle]

/-- A string that decrypts is the encryption of its message under its first block, if the block
cipher can be undone from the other side too. -/
theorem encrypt_of_decrypt (h : ∀ s, E (D s) = s) {data m : Bytes} (hm : decrypt D data = .ok m) :
    encrypt E (data.take 16) m = data := by
  obtain ⟨hdvd, hle, hpadded⟩ := decrypt_eq_ok_iff.1 hm
  have hlength : data.length = 16 * (data.length / 16 - 1 + 1) := by omega
  rw [← bytes_decryptBlocks D _ hlength] at hpadded
  have hdrop : 16 ∣ (data.drop 16).length := by
    rw [List.length_drop]
    omega
  unfold encrypt
  rw [pad_eq_of_padded hpadded ⟨_, length_bytes _⟩, blocks_bytes, encryptBlocks_decryptBlocks h,
    bytes_blocks hdrop, List.take_append_drop]

end

end Chain

namespace SymmetricKey

/-- What the blocks of a ciphertext stand for under the key, padding included. -/
def body (key : SymmetricKey) (data : Bytes) : Bytes :=
  Chain.body (Aes.decryptWith (Aes.expandKey key.bytes)) data

theorem decrypt_eq_ok_iff {key : SymmetricKey} {data m : Bytes} : key.decrypt data = .ok m ↔
    16 ∣ data.length ∧ 32 ≤ data.length ∧ Chain.Padded m (key.body data) :=
  Chain.decrypt_eq_ok_iff

theorem encryptFrom_of_decrypt {key : SymmetricKey} {data m : Bytes}
    (h : key.decrypt data = .ok m) : key.encryptFrom (data.take 16) m = data :=
  Chain.encrypt_of_decrypt (Aes.encryptWith_decryptWith _) h

/-- An encryption takes the sixteen bytes of its initialization vector off the entropy. -/
theorem encrypt_append (key : SymmetricKey) {iv : Bytes} (hiv : iv.length = 16) (m : Bytes)
    (left : Entropy) : key.encrypt m (iv ++ left) = (.ok (key.encryptFrom iv m), left) := by
  refine Entropy.drawKeyBytes_map_eq_ok_iff.2 ⟨?_, ?_, ?_⟩
  · rw [List.length_append]
    omega
  · rw [List.take_left' hiv]
  · rw [List.drop_left' hiv]

/-- Under a key and an initialization vector every message has one ciphertext, which begins with the
vector, is as long as the message filled up to whole blocks, and decrypts to the message. A byte
string decrypts exactly if it is an initialization vector and whole blocks whose body ends in
padding; the message is the body without the padding, and encrypting it under the same vector gives
the string again. So no two strings with one first block decrypt to the same message. -/
theorem ciphertexts_canonical (key : SymmetricKey) :
    (∀ iv m left, iv.length = 16 → ∃ data, key.encrypt m (iv ++ left) = (.ok data, left)
      ∧ data.length = 16 + 16 * (m.length / 16 + 1) ∧ iv <+: data ∧ key.decrypt data = .ok m)
    ∧ (∀ data, (∃ m, key.decrypt data = .ok m) ↔ data.length % 16 = 0 ∧ 32 ≤ data.length
      ∧ ∃ n, 1 ≤ n ∧ n ≤ 16 ∧ List.replicate n (UInt8.ofNat n) <:+ key.body data)
    ∧ (∀ data m, key.decrypt data = .ok m → Chain.Padded m (key.body data)
      ∧ ∀ left, key.encrypt m (data.take 16 ++ left) = (.ok data, left))
    ∧ ∀ data data' m, data.take 16 = data'.take 16 → key.decrypt data = .ok m →
      key.decrypt data' = .ok m → data = data' := by
  refine ⟨?_, ?_, ?_, ?_⟩
  · intro iv m left hiv
    refine ⟨key.encryptFrom iv m, key.encrypt_append hiv m left, ?_, List.prefix_append _ _,
      key.decrypt_encryptFrom hiv m⟩
    rw [length_encryptFrom, hiv]
  · intro data
    simp only [decrypt_eq_ok_iff, Nat.dvd_iff_mod_eq_zero]
    constructor
    · rintro ⟨m, hdvd, hle, n, hone, hsixteen, hbody⟩
      exact ⟨hdvd, hle, n, hone, hsixteen, m, hbody.symm⟩
    · rintro ⟨hdvd, hle, n, hone, hsixteen, m, hbody⟩
      exact ⟨m, hdvd, hle, n, hone, hsixteen, hbody.symm⟩
  · intro data m h
    obtain ⟨-, hle, hpadded⟩ := decrypt_eq_ok_iff.1 h
    have hiv : (data.take 16).length = 16 := by
      rw [List.length_take]
      omega
    refine ⟨hpadded, fun left => ?_⟩
    rw [key.encrypt_append hiv, encryptFrom_of_decrypt h]
  · intro data data' m hiv h h'
    rw [← encryptFrom_of_decrypt h, ← encryptFrom_of_decrypt h', hiv]

end SymmetricKey

end SealedLogin
