import SealedLogin.Bytes

/-!
# UTF-8

`Utf8.encode` gives the bytes of a text. `Utf8.decode` accepts exactly the well-formed strings, and
reports for any other where its first bad sequence begins and how long the part of it is that could
still have begun a character.
-/

namespace SealedLogin.Utf8

/-- Why a byte string is not UTF-8. -/
inductive Fault where
  /-- The `width` bytes from `index` on begin no character. -/
  | invalid (width index : Nat)
  /-- The string ends inside the character that begins at `index`. -/
  | incomplete (index : Nat)
deriving DecidableEq, Repr

def Fault.message : Fault → String
  | .invalid width index => s!"invalid utf-8 sequence of {width} bytes from index {index}"
  | .incomplete index => s!"incomplete utf-8 byte sequence from index {index}"

/-- The bytes of a text. -/
def encode (s : String) : Bytes := s.toList.flatMap String.utf8EncodeChar

/-- How many bytes a character has that begins with the given byte; zero if none begins with it. -/
def width (lead : UInt8) : Nat :=
  if lead < 0x80 then 1
  else if lead < 0xc2 then 0
  else if lead < 0xe0 then 2
  else if lead < 0xf0 then 3
  else if lead < 0xf5 then 4
  else 0

/-- Whether a byte continues a character. -/
def continues (b : UInt8) : Bool := 0x80 ≤ b && b < 0xc0

/-- Whether `b` may follow `lead` directly: a continuation byte that makes neither an overlong form,
nor a surrogate, nor a number past the last code point. -/
def follows (lead b : UInt8) : Bool :=
  continues b && (lead != 0xe0 || 0xa0 ≤ b) && (lead != 0xed || b < 0xa0)
    && (lead != 0xf0 || 0x90 ≤ b) && (lead != 0xf4 || b < 0x90)

/-- The character whose code point has the low bits of `lead`, as many as `mask` leaves, followed by
six bits from every byte of `tail`. -/
def assemble (mask lead : UInt8) (tail : Bytes) : Char :=
  Char.ofNat (tail.foldl (fun n b => n * 64 + (b &&& 0x3f).toNat) (lead &&& mask).toNat)

/-- Reads characters from the byte at `index` on; `acc` holds what was read, last one first. -/
def decodeFrom (index : Nat) (acc : List Char) : Bytes → Except Fault (List Char)
  | [] => .ok acc.reverse
  | lead :: rest =>
      match width lead with
      | 1 => decodeFrom (index + 1) (assemble 0x7f lead [] :: acc) rest
      | 2 =>
          match rest with
          | [] => .error (.incomplete index)
          | b :: rest =>
              if follows lead b then decodeFrom (index + 2) (assemble 0x1f lead [b] :: acc) rest
              else .error (.invalid 1 index)
      | 3 =>
          match rest with
          | [] => .error (.incomplete index)
          | b :: rest =>
              if !follows lead b then .error (.invalid 1 index)
              else match rest with
                | [] => .error (.incomplete index)
                | c :: rest =>
                    if continues c then
                      decodeFrom (index + 3) (assemble 0x0f lead [b, c] :: acc) rest
                    else .error (.invalid 2 index)
      | 4 =>
          match rest with
          | [] => .error (.incomplete index)
          | b :: rest =>
              if !follows lead b then .error (.invalid 1 index)
              else match rest with
                | [] => .error (.incomplete index)
                | c :: rest =>
                    if !continues c then .error (.invalid 2 index)
                    else match rest with
                      | [] => .error (.incomplete index)
                      | d :: rest =>
                          if continues d then
                            decodeFrom (index + 4) (assemble 0x07 lead [b, c, d] :: acc) rest
                          else .error (.invalid 3 index)
      | _ => .error (.invalid 1 index)

/-- The text that a byte string spells. -/
def decode (b : Bytes) : Except Fault String := (decodeFrom 0 [] b).map String.ofList

end SealedLogin.Utf8
