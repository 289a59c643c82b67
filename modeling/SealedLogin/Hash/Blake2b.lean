import SealedLogin.Bytes

/-!
# BLAKE2b

The digest of RFC 7693 without a key, of any length up to 64 bytes. Every block of 128 bytes is
mixed into the eight-word state by twelve rounds over sixteen words, each of which takes the words
of the block in another order.
-/

namespace SealedLogin.Blake2b

/-- The sixteen words that a round works on. -/
abbrev Words := Vector UInt64 16

/-- Four places of a table of `n` words that are mixed with each other. -/
structure Quad (n : Nat) where
  a : Fin n
  b : Fin n
  c : Fin n
  d : Fin n

/-- The columns and then the diagonals of a square of sixteen words. -/
def quads : List (Quad 16) :=
  [⟨0, 4, 8, 12⟩, ⟨1, 5, 9, 13⟩, ⟨2, 6, 10, 14⟩, ⟨3, 7, 11, 15⟩,
    ⟨0, 5, 10, 15⟩, ⟨1, 6, 11, 12⟩, ⟨2, 7, 8, 13⟩, ⟨3, 4, 9, 14⟩]

/-- The order in which each of ten rounds takes the words of a block; two for every quad. -/
def orders : List (List Nat) :=
  [[0, 1, 2, 3, 4, 5, 6, 7, 8, 9, 10, 11, 12, 13, 14, 15],
    [14, 10, 4, 8, 9, 15, 13, 6, 1, 12, 0, 2, 11, 7, 5, 3],
    [11, 8, 12, 0, 5, 2, 15, 13, 10, 14, 3, 6, 7, 1, 9, 4],
    [7, 9, 3, 1, 13, 12, 11, 14, 2, 6, 5, 10, 4, 0, 15, 8],
    [9, 0, 5, 7, 2, 4, 10, 15, 14, 1, 11, 12, 6, 8, 3, 13],
    [2, 12, 6, 10, 0, 11, 8, 3, 4, 13, 7, 5, 15, 14, 1, 9],
    [12, 5, 1, 15, 14, 13, 4, 10, 0, 7, 6, 3, 9, 2, 8, 11],
    [13, 11, 7, 14, 12, 1, 3, 9, 5, 0, 15, 4, 8, 6, 2, 10],
    [6, 15, 14, 9, 11, 3, 0, 8, 12, 2, 13, 7, 1, 4, 10, 5],
    [10, 2, 8, 4, 7, 6, 1, 5, 15, 11, 9, 14, 3, 12, 13, 0]]

/-- The orders of all twelve rounds; the last two are the first two again. -/
def schedule : List (List Nat) := orders ++ orders.take 2

/-- The first sixty-four bits of the fractional parts of the square roots of the first eight
primes. -/
def initial : Vector UInt64 8 :=
  #v[0x6a09e667f3bcc908, 0xbb67ae8584caa73b, 0x3c6ef372fe94f82b, 0xa54ff53a5f1d36f1,
    0x510e527fade682d1, 0x9b05688c2b3e6c1f, 0x1f83d9abfb41bd6b, 0x5be0cd19137e2179]

/-- Rotation to the right. -/
def rotr (x n : UInt64) : UInt64 := (x >>> n) ||| (x <<< (64 - n))

/-- Mixes four words with two words of the block. -/
def mix (v : Words) (q : Quad 16) (x y : UInt64) : Words :=
  let a := v[q.a] + v[q.b] + x
  let d := rotr (v[q.d] ^^^ a) 32
  let c := v[q.c] + d
  let b := rotr (v[q.b] ^^^ c) 24
  let a := a + b + y
  let d := rotr (d ^^^ a) 16
  let c := c + d
  let b := rotr (b ^^^ c) 63
  (((v.set q.a a).set q.b b).set q.c c).set q.d d

/-- One round. -/
def round (block : Words) (v : Words) (order : List Nat) : Words :=
  let word (i : Nat) : UInt64 := block[Fin.ofNat 16 (order.getD i 0)]
  (quads.zipIdx).foldl (fun v p => mix v p.1 (word (2 * p.2)) (word (2 * p.2 + 1))) v

/-- A block as sixteen little-endian words. -/
def blockWords (block : Bytes) : Words :=
  let words := ((Bytes.chunks 8 block).map fun w => UInt64.ofNat (Bytes.toNatLE w)).toArray
  Vector.ofFn fun i => words.getD i 0

/-- Mixes a block into the state. The number of message bytes up to its end goes in too, and whether
it is the last. -/
def compress (h : Vector UInt64 8) (block : Bytes) (count : Nat) (isLast : Bool) :
    Vector UInt64 8 :=
  let v : Words := h ++ initial
  let v := v.set 12 (v[12] ^^^ UInt64.ofNat count)
  let v := v.set 13 (v[13] ^^^ UInt64.ofNat (count / Nat.pow 2 64))
  let v := if isLast then v.set 14 (~~~v[14]) else v
  let v := schedule.foldl (round (blockWords block)) v
  Vector.ofFn fun i => h[i] ^^^ v[i.val] ^^^ v[i.val + 8]

/-- The state before the first block of a message, for a digest of the given length. -/
def start (length : Nat) : Vector UInt64 8 :=
  initial.set 0 (initial[0] ^^^ 0x01010000 ^^^ UInt64.ofNat length)

/-- The message filled with zeros to whole blocks, at least one. -/
def pad (m : Bytes) : Bytes :=
  m ++ List.replicate (if m.isEmpty then 128 else (128 - m.length % 128) % 128) 0

/-- The digest of a message in the given number of bytes, at most 64. -/
def digest (length : Nat) (m : Bytes) : Bytes :=
  let blocks := Bytes.chunks 128 (pad m)
  let state := blocks.zipIdx.foldl
    (fun h p =>
      let isLast := p.2 + 1 == blocks.length
      compress h p.1 (if isLast then m.length else 128 * (p.2 + 1)) isLast)
    (start length)
  (state.toList.flatMap fun w => Bytes.ofNatLE 8 w.toNat).take length

end SealedLogin.Blake2b
