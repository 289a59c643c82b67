import SealedLogin.Keys.Symmetric
import SealedLogin.Proofs.Cipher.Rounds
import SealedLogin.Proofs.Coding.Pieces

/-!
# Decryption undoes encryption, message by message

`Chain.decrypt_encrypt`: under a block cipher that can be undone, a message is recovered from its
encrypted blocks and the initialization vector in front of them. The cipher of a symmetric key is
such a one (`SymmetricKey.decrypt_encryptFrom`).
-/

namespace SealedLogin

/-! ### Blocks -/

namespace Block

theorem ofBytes_toBytes (s : Block) : ofBytes s.toBytes = s := by
  ext i hi
  simp [ofBytes, toBytes]

theorem toBytes_ofBytes {b : Bytes} (h : b.length = 16) : (ofBytes b).toBytes = b := by
  refine List.ext_getElem (by simp [h]) fun i hi hb => ?_
  simp [ofBytes, toBytes, hb]

end Block

namespace Chain

theorem bytes_cons (b : Block) (bs : List Block) : bytes (b :: bs) = b.toBytes ++ bytes bs := rfl

theorem blocks_bytes (bs : List Block) : blocks (bytes bs) = bs := by
  induction bs with
  | nil => simp [blocks, bytes, Bytes.chunks_nil]
  | cons b bs ih =>
    rw [blocks] at ih ⊢
    rw [bytes_cons, Bytes.chunks_append (by decide) b.length_toBytes, List.map_cons, ih,
      Block.ofBytes_toBytes]

theorem bytes_blocks {m : Bytes} (h : 16 ∣ m.length) : bytes (blocks m) = m := by
  obtain ⟨hlength, hflatten⟩ := Bytes.chunks_of_dvd (by decide) h
  rw [bytes, blocks, List.flatMap_map]
  refine Eq.trans ?_ hflatten
  generalize Bytes.chunks 16 m = cs at hlength
  induction cs with
  | nil => rfl
  | cons c cs ih =>
    rw [List.flatMap_cons, List.flatten_cons, Block.toBytes_ofBytes (hlength c List.mem_cons_self),
      ih fun d hd => hlength d (List.mem_cons_of_mem c hd)]

theorem length_bytes (bs : List Block) : (bytes bs).length = 16 * bs.length := by
  induction bs with
  | nil => rfl
  | cons b bs ih =>
    rw [bytes_cons, List.length_append, b.length_toBytes, ih, List.length_cons]
    omega

/-! ### Padding -/

theorem length_pad (m : Bytes) : (pad m).length = 16 * (m.length / 16 + 1) := by
  rw [pad, List.length_append, List.length_replicate]
  omega

theorem dvd_length_pad (m : Bytes) : 16 ∣ (pad m).length := ⟨_, length_pad m⟩

/-- Padding of any length comes off again. -/
theorem unpad_append_replicate (m : Bytes) {n : Nat} (hn : 1 ≤ n ∧ n ≤ 16) :
    unpad (m ++ List.replicate n (UInt8.ofNat n)) = some m := by
  obtain ⟨k, rfl⟩ : ∃ k, n = k + 1 := ⟨n - 1, by omega⟩
  have hto : (UInt8.ofNat (k + 1)).toNat = k + 1 := by
    rw [UInt8.toNat_ofNat', Nat.mod_eq_of_lt (by omega)]
  have hreverse : (m ++ List.replicate (k + 1) (UInt8.ofNat (k + 1))).reverse
      = UInt8.ofNat (k + 1) :: (List.replicate k (UInt8.ofNat (k + 1)) ++ m.reverse) := by
    rw [List.reverse_append, List.reverse_replicate, List.replicate_succ, List.cons_append]
  have hall : ((m ++ List.replicate (k + 1) (UInt8.ofNat (k + 1))).reverse.take (k + 1)).all
      (· == UInt8.ofNat (k + 1)) = true := by
    rw [List.reverse_append, List.reverse_replicate, List.take_left' List.length_replicate,
      List.all_replicate]
    simp
  rw [unpad]
  simp only [hreverse]
  rw [← hreverse, hto, if_pos]
  · rw [List.length_append, List.length_replicate, Nat.add_sub_cancel, List.take_left]
  · simp only [Bool.and_eq_true, decide_eq_true_eq, UInt8.le_iff_toNat_le, hto, hall, and_true,
      List.length_append, List.length_replicate, UInt8.reduceToNat]
    omega

/-- Padding comes off as it was put on. -/
theorem unpad_pad (m : Bytes) : unpad (pad m) = some m :=
  unpad_append_replicate m (by omega)

/-! ### Messages -/

section

variable {E D : Block → Block}

theorem length_encryptBlocks (previous : Block) (bs : List Block) :
    (encryptBlocks E previous bs).length = bs.length := by
  induction bs generalizing previous with
  | nil => rfl
  | cons b bs ih => rw [encryptBlocks, List.length_cons, ih, List.length_cons]

theorem decryptBlocks_encryptBlocks (h : ∀ s, D (E s) = s) (previous : Block) (bs : List Block) :
    decryptBlocks D previous (encryptBlocks E previous bs) = bs := by
  induction bs generalizing previous with
  | nil => rfl
  | cons b bs ih => rw [encryptBlocks, decryptBlocks, h, ih, Block.xor_xor_cancel]

theorem length_encrypt (iv m : Bytes) :
    (encrypt E iv m).length = iv.length + 16 * (m.length / 16 + 1) := by
  have hblocks := length_bytes (blocks (pad m))
  rw [bytes_blocks (dvd_length_pad m), length_pad] at hblocks
  rw [encrypt, List.length_append, length_bytes, length_encryptBlocks, hblocks]

/-- A message is recovered from its encryption, if the block cipher can be undone. -/
theorem decrypt_encrypt (h : ∀ s, D (E s) = s) {iv : Bytes} (hiv : iv.length = 16) (m : Bytes) :
    decrypt D (encrypt E iv m) = .ok m := by
  have hlength : ¬((encrypt E iv m).length < 32 ∨ (encrypt E iv m).length % 16 ≠ 0) := by
    rw [length_encrypt, hiv]
    omega
  rw [decrypt, if_neg hlength, encrypt, List.take_left' hiv, List.drop_left' hiv, blocks_bytes,
    decryptBlocks_encryptBlocks h]
  dsimp only
  rw [bytes_blocks (dvd_length_pad m), unpad_pad]

end

end Chain

namespace SymmetricKey

theorem length_encryptFrom (key : SymmetricKey) (iv m : Bytes) :
    (key.encryptFrom iv m).length = iv.length + 16 * (m.length / 16 + 1) :=
  Chain.length_encrypt iv m

/-- A message is recovered from its encryption under the same key. -/
theorem decrypt_encryptFrom (key : SymmetricKey) {iv : Bytes} (h : iv.length = 16) (m : Bytes) :
    key.decrypt (key.encryptFrom iv m) = .ok m :=
  Chain.decrypt_encrypt (Aes.decryptWith_encryptWith _) h m

end SymmetricKey

end SealedLogin
