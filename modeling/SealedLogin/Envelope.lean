import SealedLogin.DataBlock
import SealedLogin.Keys.Session

/-!
# Envelopes

An envelope is a record of two: an encrypted data block, and the signature of the encrypted bytes.
It travels in hexadecimal. `pack` puts payloads into a new block and seals it; `unpack` opens an
envelope with checks in a fixed order: shape, signature, decryption, block, freshness, binding to
the pre-key, digest, payloads. Nothing is decrypted before the signature has been verified.
-/

namespace SealedLogin.Envelope

/-- How far the time stamp of a block may be from the clock of the one who opens it, unless set
otherwise. -/
def defaultTtl : Duration := Duration.ofSeconds 300

/-- A data block encrypted under a key and signed by an identity. -/
def sealBlock (block : DataBlock) (signer : SigningIdentity) (key : SymmetricKey) :
    Drawing ProtocolError String := do
  let plaintext ← .ofExcept (ProtocolError.ofWrite (block.toRecord.bind Record.marshal))
  let encrypted ← (key.encrypt plaintext).adapt ProtocolError.ofCrypto
  let signature := signer.sign encrypted
  .ofExcept (ProtocolError.ofWrite ((Record.combine [⟨encrypted⟩, ⟨signature⟩]).bind Record.toHex))

/-- Payloads sealed in a block that is stamped with an instant and bound to a pre-key index. -/
def pack (now : Instant) (index : String) (signer : SigningIdentity) (key : SymmetricKey)
    (payloads : List Record) : Drawing ProtocolError String := do
  let data ← .ofExcept (ProtocolError.ofWrite ((Record.combine payloads).bind Record.marshal))
  let block ← DataBlock.create data now
  sealBlock (block.setPreKey index) signer key

/-- The encrypted block and the signature of an envelope. -/
def split (text : String) : Except ProtocolError (Bytes × Bytes) := do
  let outer ← ProtocolError.ofRead (Record.ofHex text)
  match ← ProtocolError.ofRead outer.expand with
  | [encrypted, signature] => .ok (encrypted.value, signature.value)
  | parts => .error (.invalidData parts.length)

/-- The data block of a verified ciphertext. -/
def decryptBlock (key : SymmetricKey) (encrypted : Bytes) : Except ProtocolError DataBlock := do
  match key.decrypt encrypted with
  | .error fault => .error (.decode (.decryption fault))
  | .ok plaintext =>
      let r ← ProtocolError.ofRead (Record.unmarshal plaintext)
      DataBlock.ofRecord r

/-- The payloads of a block that is fresh, bound to the index, and intact. -/
def openBlock (now : Instant) (index : String) (ttl : Duration) (block : DataBlock) :
    Except ProtocolError (List Record) := do
  let stamped ← block.timestamp
  if !stamped.isFresh now ttl then .error .timeExpired
  else if block.preKey != Utf8.encode index then .error .invalidPreKey
  else if !block.checkHash then .error .invalidDataHash
  else
    let data ← ProtocolError.ofRead (Record.unmarshal block.data)
    ProtocolError.ofRead data.expand

/-- The payloads of an envelope, if it passes every check. -/
def unpack (now : Instant) (index : String) (signer : VerifyingKey) (key : SymmetricKey)
    (ttl : Duration) (text : String) : Except ProtocolError (List Record) := do
  let (encrypted, signature) ← split text
  match signer.verify encrypted signature with
  | .error _ => .error .invalidSignature
  | .ok () =>
      let block ← decryptBlock key encrypted
      openBlock now index ttl block

end SealedLogin.Envelope
