import SealedLogin.Hash.Sha512
import SealedLogin.ProtocolError

/-!
# Data blocks

The plaintext inside an envelope: the time it was made, a nonce, the index of the pre-key it is
bound to, the data, and the digest of the data. `toRecord` and `ofRecord` fix the order of the five
fields.
-/

namespace SealedLogin

/-- The contents of an envelope, each field as its bytes. -/
structure DataBlock where
  /-- The time stamp of its making, to the second. -/
  time : Bytes
  /-- Random bytes that make two blocks with the same data differ. -/
  nonce : Bytes
  /-- The index of the pre-key that the block is bound to. -/
  preKey : Bytes
  /-- What the block is made for, a record of payloads. -/
  data : Bytes
  /-- The SHA-512 digest of the data. -/
  dataHash : Bytes
deriving DecidableEq, Repr, Inhabited

/-- A result that needs no random bytes, among computations that may draw some. -/
def Drawing.ofExcept {ε α : Type} (result : Except ε α) : Drawing ε α := fun left => (result, left)

namespace DataBlock

/-- The number of bytes of a nonce. -/
def nonceLength : Nat := 32

/-- The block stamped with an instant. -/
def setTime (b : DataBlock) (now : Instant) : DataBlock :=
  { b with time := Utf8.encode (Stamp.print now) }

/-- The block with a fresh nonce. -/
def generateNonce (b : DataBlock) : Drawing ProtocolError DataBlock := do
  let nonce ← (Entropy.draw nonceLength).adapt .randomUnavailable
  return { b with nonce := nonce }

/-- The block with other data and the digest of it. -/
def setData (b : DataBlock) (data : Bytes) : DataBlock :=
  { b with data := data, dataHash := Sha512.digest data }

/-- The block bound to a pre-key index. -/
def setPreKey (b : DataBlock) (index : String) : DataBlock :=
  { b with preKey := Utf8.encode index }

/-- A block for the given data, stamped with an instant and not bound yet. -/
def create (data : Bytes) (now : Instant) : Drawing ProtocolError DataBlock := do
  let block ← ((default : DataBlock).setTime now).generateNonce
  return block.setData data

def checkHash (b : DataBlock) : Bool := Bytes.equal (Sha512.digest b.data) b.dataHash

/-- The instant that the block is stamped with. -/
def timestamp (b : DataBlock) : Except ProtocolError Instant := do
  let text ← ProtocolError.ofRead (Record.mk b.time).text
  match Stamp.read b.time with
  | .ok t => .ok t
  | .error fault => .error (.decode (.time text fault))

/-- The five fields in one record. -/
def toRecord (b : DataBlock) : Except Record.Oversize Record :=
  Record.combine [⟨b.time⟩, ⟨b.nonce⟩, ⟨b.preKey⟩, ⟨b.data⟩, ⟨b.dataHash⟩]

/-- The block whose five fields are in a record. -/
def ofRecord (r : Record) : Except ProtocolError DataBlock := do
  match ← ProtocolError.ofRead r.expand with
  | [time, nonce, preKey, data, dataHash] =>
      .ok ⟨time.value, nonce.value, preKey.value, data.value, dataHash.value⟩
  | parts => .error (.decode (.fieldCount parts.length))

end DataBlock

end SealedLogin
