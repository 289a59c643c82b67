import SealedLogin.Bytes.Hex
import SealedLogin.Bytes.Utf8

/-!
# Length-value records

A record is a byte string that travels behind its length, four bytes, most significant first
(`marshal`). Records written one after another may be the value of an outer record (`combine`), and
are split again by `expand`. Reading is exact: `unmarshal` wants one record and nothing after it,
`readFront` takes one record off a buffer, and `readStream` takes records until the buffer is empty
or does not hold another one.
-/

namespace SealedLogin

/-- A length-value record; its length is that of its value. -/
structure Record where
  /-- The bytes it carries. -/
  value : Bytes
deriving DecidableEq, Repr, Inhabited

namespace Record

/-! ### Faults -/

/-- A value of `size` bytes, too long for the length field. -/
structure Oversize where
  size : Nat
deriving DecidableEq, Repr

/-- The wording of a value that is too long. -/
def Oversize.message (o : Oversize) : String :=
  s!"LV value of {o.size} bytes exceeds the u32 length prefix"

/-- Why bytes or text do not hold what was to be read from them. -/
inductive Fault where
  /-- Fewer than four bytes were left for a length. -/
  | truncatedLength (available : Nat)
  /-- A length announced more bytes than were left. -/
  | truncatedValue (declared available : Nat)
  /-- Bytes were left after the one record wanted. -/
  | trailing (extra : Nat)
  /-- The value is no text. -/
  | notText (fault : Utf8.Fault)
  /-- The text is not hexadecimal. -/
  | notHex (fault : Hex.Fault)
deriving DecidableEq, Repr

def Fault.message : Fault → String
  | .truncatedLength available => s!"truncated LV length prefix: {available} of 4 bytes"
  | .truncatedValue declared available =>
      s!"truncated LV value: declared {declared} bytes, {available} available"
  | .trailing extra => s!"{extra} trailing bytes after LV record"
  | .notText fault => "LV value is not UTF-8: " ++ fault.message
  | .notHex fault => "invalid hex: " ++ fault.message

/-! ### Values -/

/-- The record of a text. -/
def ofString (s : String) : Record := ⟨Utf8.encode s⟩

/-- The text that a record carries. -/
def text (r : Record) : Except Fault String :=
  match Utf8.decode r.value with
  | .ok s => .ok s
  | .error f => .error (.notText f)

/-- The number of bytes carried. -/
def length (r : Record) : Nat := r.value.length

/-- The number of bytes on the wire, the length field included. -/
def encodedLength (r : Record) : Nat := 4 + r.value.length

/-! ### Writing -/

/-- Values must be shorter than this many bytes. -/
def sizeLimit : Nat := Nat.pow 2 32

/-- The record on the wire. -/
def marshal (r : Record) : Except Oversize Bytes :=
  if r.value.length < sizeLimit then .ok (Bytes.ofNatBE 4 r.value.length ++ r.value)
  else .error ⟨r.value.length⟩

/-- The records on the wire, one after another. -/
def marshalAll : List Record → Except Oversize Bytes
  | [] => .ok []
  | r :: rs =>
      match marshal r with
      | .error o => .error o
      | .ok b =>
          match marshalAll rs with
          | .error o => .error o
          | .ok bs => .ok (b ++ bs)

/-- The outer record that carries the given records. -/
def combine (rs : List Record) : Except Oversize Record := (marshalAll rs).map Record.mk

/-- The record on the wire, in hexadecimal. -/
def toHex (r : Record) : Except Oversize String := (marshal r).map Hex.encode

/-! ### Reading -/

/-- Takes one record off the front of a buffer, and gives what is left of the buffer then. A length
that is cut short is left in the buffer; a length that announces too much is not. -/
def readFront : Bytes → Except Fault Record × Bytes
  | a :: b :: c :: d :: rest =>
      let declared := Bytes.toNatBE [a, b, c, d]
      let (front, behind) := rest.splitAt declared
      if front.length < declared then (.error (.truncatedValue declared front.length), rest)
      else (.ok ⟨front⟩, behind)
  | short => (.error (.truncatedLength short.length), short)

theorem length_readFront_lt {b rest : Bytes} {r : Record} (h : readFront b = (.ok r, rest)) :
    rest.length < b.length := by
  unfold readFront at h
  split at h
  · simp only [List.splitAt_eq] at h
    split at h
    · simp at h
    · simp only [Prod.mk.injEq, Except.ok.injEq] at h
      rw [← h.2]
      simp only [List.length_drop, List.length_cons]
      omega
  · simp at h

/-- The one record that a buffer holds. -/
def unmarshal (b : Bytes) : Except Fault Record :=
  match readFront b with
  | (.error f, _) => .error f
  | (.ok r, []) => .ok r
  | (.ok _, rest) => .error (.trailing rest.length)

/-- The records that a buffer consists of, after those in `acc`, which come last one first. -/
def expandFrom (acc : List Record) (b : Bytes) : Except Fault (List Record) :=
  if b = [] then .ok acc.reverse
  else match _h : readFront b with
    | (.error f, _) => .error f
    | (.ok r, rest) => expandFrom (r :: acc) rest
termination_by b.length
decreasing_by exact length_readFront_lt _h

/-- The records that a record carries. -/
def expand (r : Record) : Except Fault (List Record) := expandFrom [] r.value

/-- The outcome of reading a buffer record by record. -/
structure Stream where
  /-- The records that were read. -/
  records : List Record
  /-- The fault that ended the reading before the buffer was empty. -/
  fault : Option Fault
  /-- What was left of the buffer after every read, the last one included. -/
  left : List Bytes

/-- Reads records off a buffer, at least once, until nothing is left or a read fails. -/
def readStream (b : Bytes) : Stream :=
  match _h : readFront b with
  | (.error f, rest) => ⟨[], some f, [rest]⟩
  | (.ok r, rest) =>
      if rest = [] then ⟨[r], none, [rest]⟩
      else
        let more := readStream rest
        ⟨r :: more.records, more.fault, rest :: more.left⟩
termination_by b.length
decreasing_by exact length_readFront_lt _h

/-- The one record that a hexadecimal text spells. -/
def ofHex (s : String) : Except Fault Record :=
  match Hex.decode s with
  | .error f => .error (.notHex f)
  | .ok b => unmarshal b

end Record

end SealedLogin
