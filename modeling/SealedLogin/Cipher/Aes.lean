import SealedLogin.Bytes

/-!
# AES-256

The block cipher of FIPS 197 with a key of 32 bytes. A block holds its bytes column by column. The
substitution is inversion in the field of 256 elements followed by an affine map; `encryptWith` and
`decryptWith` run the fourteen rounds forwards and backwards under the round keys of `expandKey`.
-/

namespace SealedLogin

/-- Sixteen bytes. -/
abbrev Block := Vector UInt8 16

namespace Block

/-- The first sixteen bytes of a string, filled up with zeros. -/
def ofBytes (b : Bytes) : Block :=
  let a := b.toArray
  Vector.ofFn fun i => a.getD i 0

def toBytes (b : Block) : Bytes := b.toList

/-- Blocks combined by exclusive or. -/
def xor (a b : Block) : Block := Vector.zipWith (· ^^^ ·) a b

@[simp] theorem length_toBytes (b : Block) : b.toBytes.length = 16 := by simp [toBytes]

theorem xor_xor_cancel (a b : Block) : xor (xor a b) b = a := by
  ext i hi
  simp only [xor, Vector.getElem_zipWith, UInt8.xor_assoc, UInt8.xor_self, UInt8.xor_zero]

end Block

namespace Aes

/-! ### The field of 256 elements -/

/-- The double of an element. -/
def double (a : UInt8) : UInt8 := (a <<< 1) ^^^ (if a &&& 0x80 = 0 then 0 else 0x1b)

/-- The product of two elements. -/
def times (a b : UInt8) : UInt8 :=
  ((List.range 8).foldl
    (fun (p : UInt8 × UInt8) i =>
      (if b.toNat.testBit i then p.1 ^^^ p.2 else p.1, double p.2))
    (0, a)).1

/-- The inverse of an element, which is its 254th power; zero for zero. -/
def inverse (a : UInt8) : UInt8 :=
  let a2 := times a a
  let a4 := times a2 a2
  let a8 := times a4 a4
  let a16 := times a8 a8
  let a32 := times a16 a16
  let a64 := times a32 a32
  let a128 := times a64 a64
  times (times (times a2 a4) (times a8 a16)) (times (times a32 a64) a128)

/-- Rotation of the bits of a byte to the left. -/
def rotl (a n : UInt8) : UInt8 := (a <<< n) ||| (a >>> (8 - n))

/-- What a byte is replaced by. -/
def substitution (a : UInt8) : UInt8 :=
  let i := inverse a
  i ^^^ rotl i 1 ^^^ rotl i 2 ^^^ rotl i 3 ^^^ rotl i 4 ^^^ 0x63

/-- All replacements in order. -/
def substitutions : Array UInt8 :=
  ((List.range 256).map fun n => substitution (UInt8.ofNat n)).toArray

/-- The byte that each byte replaces, in order. -/
def restorations : Array UInt8 :=
  (List.range 256).foldl
    (fun table n => table.setIfInBounds (substitutions.getD n 0).toNat (UInt8.ofNat n))
    (Array.replicate 256 0)

/-- The replacement of a byte, looked up. -/
def substitute (a : UInt8) : UInt8 := substitutions.getD a.toNat 0

/-- The byte that was replaced, looked up. -/
def restore (a : UInt8) : UInt8 := restorations.getD a.toNat 0

/-! ### Steps of a round -/

/-- Row `r` moved `r` columns to the left. -/
def shiftRows (s : Block) : Block := Vector.ofFn fun i => s[(i.val + 4 * (i.val % 4)) % 16]

/-- Row `r` moved `r` columns to the right. -/
def unshiftRows (s : Block) : Block := Vector.ofFn fun i => s[(i.val + 12 * (i.val % 4)) % 16]

/-- Every column multiplied by the circulant matrix whose first row is given. -/
def mixWith (m0 m1 m2 m3 : UInt8) (s : Block) : Block :=
  Vector.ofFn fun i =>
    let column := 4 * (i.val / 4)
    let row := i.val % 4
    times m0 s[column + row] ^^^ times m1 s[column + (row + 1) % 4]
      ^^^ times m2 s[column + (row + 2) % 4] ^^^ times m3 s[column + (row + 3) % 4]

/-- The mixing of columns in encryption. -/
def mixColumns : Block → Block := mixWith 2 3 1 1

/-- The mixing with the inverse matrix, which undoes the other. -/
def unmixColumns : Block → Block := mixWith 14 11 13 9

/-! ### Keys -/

/-- The four-byte words of the expanded key: the eight of the key itself, then each from the one
before it and the one eight before it. -/
def keyWords (key : Bytes) : Array Bytes :=
  ((List.range 52).foldl
    (fun (p : Array Bytes × UInt8) n =>
      let (words, constant) := p
      let last := words.getD (n + 7) []
      let mixed :=
        if n % 8 = 0 then
          Bytes.xor ((last.drop 1 ++ last.take 1).map substitute) [constant, 0, 0, 0]
        else if n % 8 = 4 then last.map substitute
        else last
      (words.push (Bytes.xor (words.getD n []) mixed),
        if n % 8 = 0 then double constant else constant))
    ((Bytes.chunks 4 key).toArray, 1)).1

/-- The fifteen round keys of a key. -/
def expandKey (key : Bytes) : List Block :=
  (Bytes.chunks 16 (keyWords key).toList.flatten).map Block.ofBytes

/-! ### The cipher -/

/-- The rounds after the first key, the last of which does not mix columns. -/
def encryptRounds : List Block → Block → Block
  | [], s => s
  | [k], s => (shiftRows (s.map substitute)).xor k
  | k :: ks, s => encryptRounds ks ((mixColumns (shiftRows (s.map substitute))).xor k)

/-- A block encrypted under round keys. -/
def encryptWith (keys : List Block) (s : Block) : Block :=
  match keys with
  | [] => s
  | k :: ks => encryptRounds ks (s.xor k)

/-- The rounds of `encryptRounds` undone, last round first. -/
def decryptRounds : List Block → Block → Block
  | [], s => s
  | [k], s => (unshiftRows (s.xor k)).map restore
  | k :: ks, s => (unshiftRows (unmixColumns ((decryptRounds ks s).xor k))).map restore

/-- A block decrypted under round keys. -/
def decryptWith (keys : List Block) (s : Block) : Block :=
  match keys with
  | [] => s
  | k :: ks => (decryptRounds ks s).xor k

end Aes

end SealedLogin
