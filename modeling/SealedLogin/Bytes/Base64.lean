import SealedLogin.Bytes

/-!
# Base64 without padding

Four characters of the standard alphabet stand for three bytes; two or three characters at the end
stand for one or two. A text has to be what the bytes are written as, so bits that belong to no byte
have to be zero.
-/

namespace SealedLogin.Base64

/-- The six bits that a character stands for. -/
def sextet? (c : Char) : Option Nat :=
  if 'A' ≤ c ∧ c ≤ 'Z' then some (c.toNat - 65)
  else if 'a' ≤ c ∧ c ≤ 'z' then some (c.toNat - 71)
  else if '0' ≤ c ∧ c ≤ '9' then some (c.toNat + 4)
  else if c = '+' then some 62
  else if c = '/' then some 63
  else none

/-- The bytes of some sextets. -/
def join : List Nat → Option Bytes
  | [] => some []
  | [_] => none
  | [a, b] => if b % 16 = 0 then some (Bytes.ofNatBE 1 (a * 4 + b / 16)) else none
  | [a, b, c] =>
      if c % 4 = 0 then some (Bytes.ofNatBE 2 ((a * 64 + b) * 16 + c / 4)) else none
  | a :: b :: c :: d :: rest =>
      (join rest).map (Bytes.ofNatBE 3 (((a * 64 + b) * 64 + c) * 64 + d) ++ ·)

/-- The bytes that a text stands for. -/
def decode? (text : String) : Option Bytes := (text.toList.mapM sextet?).bind join

end SealedLogin.Base64
