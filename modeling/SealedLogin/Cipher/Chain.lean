import SealedLogin.Cipher.Aes

/-!
# Chained blocks

Cipher block chaining over any block cipher, with the padding that fills a message up to whole
blocks: `n` bytes of value `n`, for some `n` from one to sixteen. `encrypt` and `decrypt` work on
byte strings whose first block is the initialization vector.
-/

namespace SealedLogin.Chain

/-! ### Padding -/

/-- A message filled up to whole blocks; a message of whole blocks gets another one. -/
def pad (m : Bytes) : Bytes :=
  let n := 16 - m.length % 16
  m ++ List.replicate n (UInt8.ofNat n)

/-- A padded message without its padding, if the padding is right. -/
def unpad (m : Bytes) : Option Bytes :=
  match m.reverse with
  | [] => none
  | n :: _ =>
      if 1 ≤ n && n ≤ 16 && n.toNat ≤ m.length && (m.reverse.take n.toNat).all (· == n) then
        some (m.take (m.length - n.toNat))
      else none

/-! ### Chaining -/

/-- The blocks of a byte string. -/
def blocks (b : Bytes) : List Block := (Bytes.chunks 16 b).map Block.ofBytes

/-- The bytes of some blocks. -/
def bytes (bs : List Block) : Bytes := bs.flatMap Block.toBytes

/-- Every block is combined with the encrypted block before it, then encrypted. -/
def encryptBlocks (E : Block → Block) : Block → List Block → List Block
  | _, [] => []
  | previous, b :: bs =>
      let c := E (b.xor previous)
      c :: encryptBlocks E c bs

/-- Every block is decrypted, then combined with the encrypted block before it. -/
def decryptBlocks (D : Block → Block) : Block → List Block → List Block
  | _, [] => []
  | previous, c :: cs => (D c).xor previous :: decryptBlocks D c cs

/-- The initialization vector followed by the padded message in encrypted blocks. -/
def encrypt (E : Block → Block) (iv m : Bytes) : Bytes :=
  iv ++ bytes (encryptBlocks E (Block.ofBytes iv) (blocks (pad m)))

/-- Why a byte string does not decrypt. -/
inductive Fault where
  /-- The string is not an initialization vector and at least one whole block. -/
  | badLength (length : Nat)
  /-- The decrypted blocks do not end in padding. -/
  | badPadding
  /-- The reason given by another cipher. -/
  | described (reason : String)
deriving DecidableEq, Repr

def Fault.message : Fault → String
  | .badLength length => s!"ciphertext length {length} is not IV plus whole blocks"
  | .badPadding => "Unpad Error"
  | .described reason => reason

/-- The message of an encrypted byte string. -/
def decrypt (D : Block → Block) (data : Bytes) : Except Fault Bytes :=
  if data.length < 32 ∨ data.length % 16 ≠ 0 then .error (.badLength data.length)
  else
    let plain := decryptBlocks D (Block.ofBytes (data.take 16)) (blocks (data.drop 16))
    match unpad (bytes plain) with
    | none => .error .badPadding
    | some m => .ok m

end SealedLogin.Chain
