import SealedLogin.Bytes.Utf8
import SealedLogin.Text.Quoted

/-!
# Hexadecimal text

`Hex.encode` writes two lowercase digits a byte. `Hex.decode` reads digits of either case; its
faults are an odd number of bytes in the text, found first, and then the first byte that is no
digit.
-/

namespace SealedLogin.Hex

/-- Why a text is not hexadecimal. -/
inductive Fault where
  /-- The text has an odd number of bytes. -/
  | oddLength
  /-- The byte at `position` is no digit. -/
  | badDigit (byte : UInt8) (position : Nat)
deriving DecidableEq, Repr

/-- The wording of a fault; the offending byte is shown as the character of the same number. -/
def Fault.message : Fault → String
  | .oddLength => "Odd number of digits"
  | .badDigit byte position =>
      "Invalid character " ++ Text.quoteChar (Char.ofNat byte.toNat) ++ " at position "
        ++ toString position

/-- The lowercase digit of a number below sixteen. -/
def digit (n : UInt8) : Char :=
  if n < 10 then Char.ofNat (48 + n.toNat) else Char.ofNat (87 + n.toNat)

/-- The two digits of a byte. -/
def encodeByte (b : UInt8) : List Char := [digit (b >>> 4), digit (b &&& 15)]

/-- Two lowercase digits for every byte. -/
def encode (b : Bytes) : String := String.ofList (b.flatMap encodeByte)

/-- The value of a digit of either case, given as a byte of text. -/
def digitValue (b : UInt8) : Option UInt8 :=
  if 48 ≤ b && b ≤ 57 then some (b - 48)
  else if 97 ≤ b && b ≤ 102 then some (b - 87)
  else if 65 ≤ b && b ≤ 70 then some (b - 55)
  else none

/-- Reads digit pairs from the byte at `position` on; `acc` holds what was read, last byte first. -/
def decodePairs (position : Nat) (acc : Bytes) : Bytes → Except Fault Bytes
  | hi :: lo :: rest =>
      match digitValue hi, digitValue lo with
      | none, _ => .error (.badDigit hi position)
      | some _, none => .error (.badDigit lo (position + 1))
      | some h, some l => decodePairs (position + 2) ((h <<< 4 ||| l) :: acc) rest
  | _ => .ok acc.reverse

/-- Reads the bytes of a text of hexadecimal digits. -/
def decodeBytes (text : Bytes) : Except Fault Bytes :=
  if text.length % 2 = 1 then .error .oddLength else decodePairs 0 [] text

/-- Reads a text of hexadecimal digits. -/
def decode (text : String) : Except Fault Bytes := decodeBytes (Utf8.encode text)

end SealedLogin.Hex
