/-!
# Decimal numbers in text

Numbers are written in decimal, where a format wants it in a least number of digits. `readNat?`
reads a run of digits back; `readCount` reads a number that somebody typed, and says what is wrong
with it.
-/

namespace SealedLogin.Text

/-- The digits of a number, with zeros in front up to `width` digits. -/
def paddedDigits (width n : Nat) : List Char :=
  let ds := Nat.toDigits 10 n
  List.replicate (width - ds.length) '0' ++ ds

/-- Whether a byte is a decimal digit. -/
def isDigitByte (b : UInt8) : Bool := 48 ≤ b && b ≤ 57

/-- The number that digits spell, the most significant one first. -/
def digitsValue (ds : List UInt8) : Nat := ds.foldl (fun n d => n * 10 + (d.toNat - 48)) 0

/-- The number that a string of digits spells. -/
def readNat? (ds : List UInt8) : Option Nat :=
  if ds.all isDigitByte then some (digitsValue ds) else none

/-- Why a text is no number. -/
inductive CountFault where
  | empty
  | notDigit
  /-- The number is not below the limit. -/
  | tooLarge
deriving DecidableEq, Repr

def CountFault.message : CountFault → String
  | .empty => "cannot parse integer from empty string"
  | .notDigit => "invalid digit found in string"
  | .tooLarge => "number too large to fit in target type"

/-- The number that more digits spell behind those of `n`. The first character that is no digit or
makes the number too large decides. -/
def readCountFrom (limit n : Nat) : List Char → Except CountFault Nat
  | [] => .ok n
  | c :: cs =>
      if !c.isDigit then .error .notDigit
      else
        let n := n * 10 + (c.toNat - 48)
        if limit ≤ n then .error .tooLarge else readCountFrom limit n cs

/-- The number below a limit that a text spells in digits, which a plus sign may precede. -/
def readCount (limit : Nat) (text : String) : Except CountFault Nat :=
  match text.toList with
  | [] => .error .empty
  | ['+'] => .error .notDigit
  | '+' :: digits => readCountFrom limit 0 digits
  | digits => readCountFrom limit 0 digits

end SealedLogin.Text
