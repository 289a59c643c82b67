import SealedLogin.Hash.Blake2b

/-!
# Argon2

The password hash of RFC 9106, which fills a memory of blocks, each from the one before it and from
one that is chosen either by the password or by the position alone. The memory is split into lanes,
and each pass over it into four slices.
-/

namespace SealedLogin.Argon2

/-- How the blocks are chosen that go into a new one. -/
inductive Variant where
  /-- By the password. -/
  | dependent
  /-- By the position. -/
  | independent
  /-- By the position in the first half of the first pass, by the password from then on. -/
  | hybrid
deriving DecidableEq, Repr

/-- The number that stands for a variant. -/
def Variant.number : Variant → Nat
  | .dependent => 0
  | .independent => 1
  | .hybrid => 2

/-- The two versions of the algorithm. -/
inductive Version where
  /-- Later passes write over the blocks. -/
  | overwriting
  /-- Later passes combine the new blocks with the old. -/
  | combining
deriving DecidableEq, Repr

/-- The number that stands for a version. -/
def Version.number : Version → Nat
  | .overwriting => 16
  | .combining => 19

/-- All that the hash depends on besides password and salt. -/
structure Params where
  variant : Variant
  version : Version
  /-- Blocks of memory, rounded down to what lanes and slices share evenly. -/
  memory : Nat
  passes : Nat
  lanes : Nat
  /-- The number of bytes of the hash. -/
  length : Nat
  /-- Data that goes into the hash besides the password. -/
  data : Bytes
deriving DecidableEq, Repr

namespace Params

/-- The number of blocks in a slice of a lane. -/
def segmentLength (p : Params) : Nat := p.memory / (4 * p.lanes)

/-- The number of blocks in a lane. -/
def laneLength (p : Params) : Nat := 4 * p.segmentLength

/-- The number of blocks. -/
def blockCount (p : Params) : Nat := p.lanes * p.laneLength

end Params

/-! ### Blocks -/

/-- A block of 1024 bytes. -/
abbrev Block := Vector UInt64 128

def Block.zero : Block := Vector.replicate 128 0

/-- The block of little-endian words. -/
def Block.ofBytes (b : Bytes) : Block :=
  let words := ((Bytes.chunks 8 b).map fun w => UInt64.ofNat (Bytes.toNatLE w)).toArray
  Vector.ofFn fun i => words.getD i 0

def Block.toBytes (x : Block) : Bytes := x.toList.flatMap fun w => Bytes.ofNatLE 8 w.toNat

/-- Two blocks combined bit by bit. -/
def Block.xor (x y : Block) : Block := x.zipWith (· ^^^ ·) y

/-- Addition to which twice the product of the low halves is added. -/
def multiplyAdd (x y : UInt64) : UInt64 := x + y + 2 * (x &&& 0xffffffff) * (y &&& 0xffffffff)

/-- Mixes four words of a block. -/
def mix (v : Block) (q : Blake2b.Quad 128) : Block :=
  let a := multiplyAdd v[q.a] v[q.b]
  let d := Blake2b.rotr (v[q.d] ^^^ a) 32
  let c := multiplyAdd v[q.c] d
  let b := Blake2b.rotr (v[q.b] ^^^ c) 24
  let a := multiplyAdd a b
  let d := Blake2b.rotr (d ^^^ a) 16
  let c := multiplyAdd c d
  let b := Blake2b.rotr (b ^^^ c) 63
  (((v.set q.a a).set q.b b).set q.c c).set q.d d

/-- Word `k` of row `i`, in a block of eight rows of sixteen words. -/
def rowPlace (i k : Nat) : Fin 128 := Fin.ofNat 128 (16 * i + k)

/-- Word `k` of column `i`, which is two words wide. -/
def columnPlace (i k : Nat) : Fin 128 := Fin.ofNat 128 (2 * i + 16 * (k / 2) + k % 2)

/-- What is mixed in turn: the quads of every row, then those of every column. -/
def blockQuads : List (Blake2b.Quad 128) :=
  [rowPlace, columnPlace].flatMap fun place =>
    (List.range 8).flatMap fun i =>
      Blake2b.quads.map fun q => ⟨place i q.a, place i q.b, place i q.c, place i q.d⟩

/-- A block made from two. -/
def compress (x y : Block) : Block :=
  let r := x.xor y
  r.xor (blockQuads.foldl mix r)

/-! ### Digests of any length -/

/-- A number in four bytes. -/
def number (n : Nat) : Bytes := Bytes.ofNatLE 4 n

/-- A byte string with its length in front. -/
def framed (b : Bytes) : Bytes := number b.length ++ b

/-- Digests of 64 bytes, each of the one before it, of which half is kept, and the last in full in
the bytes that remain. -/
def longDigestFrom : Nat → Nat → Bytes → Bytes
  | 0, length, v => v.take 32 ++ Blake2b.digest length v
  | steps + 1, length, v => v.take 32 ++ longDigestFrom steps length (Blake2b.digest 64 v)

/-- The digest of a message in any number of bytes. -/
def longDigest (length : Nat) (m : Bytes) : Bytes :=
  let m := number length ++ m
  if length ≤ 64 then Blake2b.digest length m
  else
    let steps := (length + 31) / 32 - 3
    longDigestFrom steps (length - 32 * (steps + 1)) (Blake2b.digest 64 m)

/-- The digest that the first blocks are made of. -/
def seed (p : Params) (password salt : Bytes) : Bytes :=
  Blake2b.digest 64
    (number p.lanes ++ number p.length ++ number p.memory ++ number p.passes
      ++ number p.version.number ++ number p.variant.number
      ++ framed password ++ framed salt ++ framed [] ++ framed p.data)

/-! ### Filling the memory -/

/-- A slice of a lane in a pass. -/
structure Segment where
  pass : Nat
  slice : Nat
  lane : Nat

/-- The segments in the order in which they are filled. -/
def segments (p : Params) : List Segment :=
  (List.range p.passes).flatMap fun pass =>
    (List.range 4).flatMap fun slice => (List.range p.lanes).map fun lane => ⟨pass, slice, lane⟩

/-- Whether the position alone chooses the blocks for a segment. -/
def isIndependent (p : Params) (s : Segment) : Bool :=
  match p.variant with
  | .dependent => false
  | .independent => true
  | .hybrid => s.pass == 0 && s.slice < 2

/-- The words that choose the blocks for a segment by position. -/
def choices (p : Params) (s : Segment) : Array UInt64 :=
  let input (counter : Nat) : Block :=
    let words := #[s.pass, s.lane, s.slice, p.blockCount, p.passes, p.variant.number, counter]
    Vector.ofFn fun i => UInt64.ofNat (words.getD i 0)
  (List.range ((p.segmentLength + 127) / 128)).foldl
    (fun acc i => acc ++ (compress .zero (compress .zero (input (i + 1)))).toArray) #[]

/-- The place in memory of the block that `word` chooses for place `index` of a segment. Of the
`area` blocks that may be chosen, late ones are likelier; other lanes lend only what is finished. -/
def reference (p : Params) (s : Segment) (index : Nat) (word : UInt64) : Nat :=
  let lane := if s.pass = 0 && s.slice = 0 then s.lane else (word >>> 32).toNat % p.lanes
  let finished := if s.pass = 0 then s.slice * p.segmentLength else 3 * p.segmentLength
  let area :=
    if lane = s.lane then finished + index - 1 else if index = 0 then finished - 1 else finished
  let x := (word &&& 0xffffffff).toNat
  let back := area * (x * x / Nat.pow 2 32) / Nat.pow 2 32
  let first := if s.pass = 0 then 0 else (s.slice + 1) % 4 * p.segmentLength
  lane * p.laneLength + (first + (area - 1 - back)) % p.laneLength

def fillSegment (p : Params) (memory : Array Block) (s : Segment) : Array Block :=
  let byPosition := isIndependent p s
  let chosen := if byPosition then choices p s else #[]
  let start := if s.pass = 0 && s.slice = 0 then 2 else 0
  (List.range' start (p.segmentLength - start)).foldl
    (fun memory index =>
      let column := s.slice * p.segmentLength + index
      let here := s.lane * p.laneLength + column
      let before := s.lane * p.laneLength + (column + p.laneLength - 1) % p.laneLength
      let last := memory.getD before .zero
      let word := if byPosition then chosen.getD index 0 else last[0]
      let block := compress last (memory.getD (reference p s index word) .zero)
      let block :=
        if s.pass = 0 || p.version = .overwriting then block
        else block.xor (memory.getD here .zero)
      memory.setIfInBounds here block)
    memory

/-- The memory with the first two blocks of every lane. -/
def startMemory (p : Params) (seed : Bytes) : Array Block :=
  (List.range p.lanes).foldl
    (fun memory lane =>
      let block (i : Nat) : Block := .ofBytes (longDigest 1024 (seed ++ number i ++ number lane))
      (memory.setIfInBounds (lane * p.laneLength) (block 0)).setIfInBounds
        (lane * p.laneLength + 1) (block 1))
    (Array.replicate p.blockCount .zero)

/-- The last blocks of all lanes combined. -/
def lastBlock (p : Params) (memory : Array Block) : Block :=
  (List.range p.lanes).foldl
    (fun x lane => x.xor (memory.getD (lane * p.laneLength + p.laneLength - 1) .zero)) .zero

def hash (p : Params) (password salt : Bytes) : Bytes :=
  let memory := (segments p).foldl (fillSegment p) (startMemory p (seed p password salt))
  longDigest p.length (lastBlock p memory).toBytes

end SealedLogin.Argon2
