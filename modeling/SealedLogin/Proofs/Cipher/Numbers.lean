import SealedLogin.Proofs.Cipher.Chaining

/-!
# AES on numbers

Encryption computed on columns of numbers below 256 in place of blocks of bytes
(`SymmetricKey.encryptFrom_eq`). Proofs about a fixed message need this: the kernel computes with
numbers fast, with bytes it does not.
-/

namespace SealedLogin

/-- A column of a block as numbers. -/
def Block.column (s : Block) (c : Nat) : List Nat :=
  [(Aes.entry s c 0).toNat, (Aes.entry s c 1).toNat, (Aes.entry s c 2).toNat,
    (Aes.entry s c 3).toNat]

/-- The four columns of a block as numbers. -/
def Block.columns (s : Block) : List (List Nat) := [s.column 0, s.column 1, s.column 2, s.column 3]

theorem Block.toBytes_eq (s : Block) : s.toBytes = s.columns.flatten.map UInt8.ofNat := by
  refine List.ext_getElem (by rw [length_toBytes]; rfl) fun i hi _ => ?_
  rw [length_toBytes] at hi
  match i, hi with
  | 0, _ | 1, _ | 2, _ | 3, _ | 4, _ | 5, _ | 6, _ | 7, _ | 8, _ | 9, _ | 10, _ | 11, _ | 12, _
  | 13, _ | 14, _ | 15, _ => simp [toBytes, columns, column, Aes.entry]
  | n + 16, h => exact absurd h (by omega)

namespace Aes

/-! ### Steps of a round -/

/-- `substitute` on numbers. -/
def substituteNat (a : Nat) : Nat :=
  ((substitutionRows.getD (a.div 16) 0).shiftRight (Nat.mul 8 (a.mod 16))).mod 256

/-- `Block.xor` on columns. -/
def xorColumns (s t : List (List Nat)) : List (List Nat) := s.zipWith (List.zipWith Nat.xor) t

/-- `shiftRows` on columns. -/
def shiftColumns : List (List Nat) → List (List Nat)
  | [[a0, a1, a2, a3], [b0, b1, b2, b3], [c0, c1, c2, c3], [d0, d1, d2, d3]] =>
      [[a0, b1, c2, d3], [b0, c1, d2, a3], [c0, d1, a2, b3], [d0, a1, b2, c3]]
  | s => s

/-- `mixColumns` on one column. -/
def mixColumn : List Nat → List Nat
  | [a, b, c, d] =>
      [(((doubleNat a).xor ((doubleNat b).xor b)).xor c).xor d,
        (((doubleNat b).xor ((doubleNat c).xor c)).xor d).xor a,
        (((doubleNat c).xor ((doubleNat d).xor d)).xor a).xor b,
        (((doubleNat d).xor ((doubleNat a).xor a)).xor b).xor c]
  | s => s

theorem toNat_substitute (x : UInt8) : (substitute x).toNat = substituteNat x.toNat := by
  rw [substitute_eq, tableByte, UInt8.toNat_ofNat']
  rfl

theorem columns_xor (s t : Block) : (s.xor t).columns = xorColumns s.columns t.columns := by
  simp only [Block.columns, Block.column, entry_xor, UInt8.toNat_xor]
  rfl

theorem columns_map_substitute (s : Block) :
    Block.columns (s.map substitute) = s.columns.map (List.map substituteNat) := by
  simp only [Block.columns, Block.column, entry_map, toNat_substitute, List.map_cons, List.map_nil]

theorem columns_shiftRows (s : Block) : (shiftRows s).columns = shiftColumns s.columns := by
  simp only [Block.columns, Block.column, entry_shiftRows]
  rfl

theorem columns_mixColumns (s : Block) : (mixColumns s).columns = s.columns.map mixColumn := by
  simp only [Block.columns, Block.column, mixColumns, entry_mixWith, one_times, two_times,
    three_times, UInt8.toNat_xor, toNat_double]
  rfl

/-! ### The cipher -/

/-- `encryptRounds` on columns. -/
def encryptRoundsNat : List (List (List Nat)) → List (List Nat) → List (List Nat)
  | [], s => s
  | [k], s => xorColumns (shiftColumns (s.map (List.map substituteNat))) k
  | k :: ks, s =>
      encryptRoundsNat ks
        (xorColumns ((shiftColumns (s.map (List.map substituteNat))).map mixColumn) k)

/-- `encryptWith` on columns. -/
def encryptWithNat (keys : List (List (List Nat))) (s : List (List Nat)) : List (List Nat) :=
  match keys with
  | [] => s
  | k :: ks => encryptRoundsNat ks (xorColumns s k)

theorem columns_encryptRounds (keys : List Block) (s : Block) :
    (encryptRounds keys s).columns = encryptRoundsNat (keys.map Block.columns) s.columns := by
  fun_induction encryptRounds keys s with
  | case1 s => rfl
  | case2 k s =>
    rw [columns_xor, columns_shiftRows, columns_map_substitute]
    rfl
  | case3 k ks s hne ih =>
    obtain ⟨k', ks', rfl⟩ := List.exists_cons_of_ne_nil hne
    rw [ih, columns_xor, columns_mixColumns, columns_shiftRows, columns_map_substitute]
    rfl

theorem columns_encryptWith (keys : List Block) (s : Block) :
    (encryptWith keys s).columns = encryptWithNat (keys.map Block.columns) s.columns := by
  cases keys with
  | nil => rfl
  | cons k ks =>
    rw [encryptWith, columns_encryptRounds, columns_xor]
    rfl

end Aes

/-! ### Messages -/

namespace Chain

/-- `encryptBlocks` on columns, the numbers of the encrypted blocks one after another. -/
def encryptBlocksNat (E : List (List Nat) → List (List Nat)) :
    List (List Nat) → List (List (List Nat)) → List Nat
  | _, [] => []
  | previous, b :: bs =>
      let c := E (Aes.xorColumns b previous)
      c.flatten ++ encryptBlocksNat E c bs

theorem bytes_encryptBlocks {E : Block → Block} {E' : List (List Nat) → List (List Nat)}
    (h : ∀ s : Block, (E s).columns = E' s.columns) (previous : Block) (bs : List Block) :
    bytes (encryptBlocks E previous bs)
      = (encryptBlocksNat E' previous.columns (bs.map Block.columns)).map UInt8.ofNat := by
  induction bs generalizing previous with
  | nil => rfl
  | cons b bs ih =>
    rw [encryptBlocks, bytes_cons, ih, List.map_cons, encryptBlocksNat, ← Aes.columns_xor, ← h,
      List.map_append, Block.toBytes_eq]

end Chain

namespace Aes

/-- `keyWords`, with the substitutions looked up in the table. -/
def keyWordsNat (key : Bytes) : Array Bytes :=
  ((List.range 52).foldl
    (fun (p : Array Bytes × UInt8) n =>
      let (words, constant) := p
      let last := words.getD (n + 7) []
      let mixed :=
        if n % 8 = 0 then
          Bytes.xor ((last.drop 1 ++ last.take 1).map (tableByte substitutionRows))
            [constant, 0, 0, 0]
        else if n % 8 = 4 then last.map (tableByte substitutionRows)
        else last
      (words.push (Bytes.xor (words.getD n []) mixed),
        if n % 8 = 0 then double constant else constant))
    ((Bytes.chunks 4 key).toArray, 1)).1

/-- `expandKey`, with the substitutions looked up in the table. -/
def expandKeyNat (key : Bytes) : List (List (List Nat)) :=
  ((Bytes.chunks 16 (keyWordsNat key).toList.flatten).map Block.ofBytes).map Block.columns

theorem columns_expandKey (key : Bytes) : (expandKey key).map Block.columns = expandKeyNat key := by
  have hsub : substitute = tableByte substitutionRows := funext substitute_eq
  rw [expandKey, keyWords, hsub, expandKeyNat, keyWordsNat]

end Aes

/-- `SymmetricKey.encryptFrom`, computed on numbers. -/
def SymmetricKey.encryptFromNat (key : SymmetricKey) (iv m : Bytes) : Bytes :=
  iv ++ (Chain.encryptBlocksNat (Aes.encryptWithNat (Aes.expandKeyNat key.bytes))
    (Block.ofBytes iv).columns ((Chain.blocks (Chain.pad m)).map Block.columns)).map UInt8.ofNat

theorem SymmetricKey.encryptFrom_eq (key : SymmetricKey) (iv m : Bytes) :
    key.encryptFrom iv m = key.encryptFromNat iv m := by
  rw [encryptFromNat, ← Aes.columns_expandKey, ← Chain.bytes_encryptBlocks
    (Aes.columns_encryptWith _)]
  rfl

end SealedLogin
