import SealedLogin.Text.Quoted

/-!
# Scanning JSON text

Readers of the pieces of JSON text: strings, numbers, literals, and whole values that are of no
interest. A reader takes characters off the front of the text and gives the rest; of the faults of a
text the first in reading order decides.

Strings that are read must be text, so a surrogate escape needs its partner. In what is skipped only
the form counts: lone surrogates and numbers of any size pass there.
-/

namespace SealedLogin.JsonText

/-- Why a text was not read. -/
inductive Fault where
  /-- The text ends too soon. -/
  | endOfText
  /-- The text is no JSON, or a number is larger than any that can be represented. -/
  | malformed
  /-- The text is well-formed so far, but not what was wanted here. -/
  | mismatch
deriving DecidableEq, Repr

/-- Takes something off the front of a text. -/
abbrev Scan (α : Type) := List Char → Except Fault (α × List Char)

/-- Whether a character may stand between the pieces of a text. -/
def isBlank (c : Char) : Bool := c == ' ' || c == '\t' || c == '\n' || c == '\r'

/-- The text from its first character that is no blank. -/
def dropBlank (s : List Char) : List Char := s.dropWhile isBlank

/-! ### Strings -/

/-- The value of a hexadecimal digit. -/
def hexValue (c : Char) : Option Nat :=
  if '0' ≤ c ∧ c ≤ '9' then some (c.toNat - 48)
  else if 'a' ≤ c ∧ c ≤ 'f' then some (c.toNat - 87)
  else if 'A' ≤ c ∧ c ≤ 'F' then some (c.toNat - 55)
  else none

/-- The number that the first four characters spell in hexadecimal. The text ends too soon if fewer
than four bytes of it are left. -/
def hexUnit (s : List Char) : Except Fault Nat :=
  match (s.take 4).mapM hexValue with
  | some [a, b, c, d] => .ok (((a * 16 + b) * 16 + c) * 16 + d)
  | _ =>
      let left := (s.take 4).foldl (fun n c => n + c.utf8Size) 0
      if left < 4 then .error .endOfText else .error .malformed

/-- What a letter after a backslash stands for. -/
def escaped (c : Char) : Option Char :=
  match c with
  | '\x22' => some '\x22'
  | '\\' => some '\\'
  | '/' => some '/'
  | 'b' => some '\x08'
  | 'f' => some '\x0c'
  | 'n' => some '\n'
  | 'r' => some '\r'
  | 't' => some '\t'
  | _ => none

/-- Whether a number is the first half of a surrogate pair. -/
def isHighSurrogate (n : Nat) : Bool := 0xd800 ≤ n && n < 0xdc00

/-- Whether a number is the second half of a surrogate pair. -/
def isLowSurrogate (n : Nat) : Bool := 0xdc00 ≤ n && n < 0xe000

/-- The character of a surrogate pair. -/
def pairChar (high low : Nat) : Char :=
  Char.ofNat (0x10000 + (high - 0xd800) * 0x400 + (low - 0xdc00))

/-- The second half of a surrogate pair, which must follow the first one as another escape. -/
def lowSurrogate : List Char → Except Fault Nat
  | [] => .error .endOfText
  | ['\\'] => .error .endOfText
  | '\\' :: 'u' :: rest => do
      let low ← hexUnit rest
      if isLowSurrogate low then .ok low else .error .malformed
  | _ => .error .malformed

/-- The string up to its closing quote; `acc` holds the characters before, last one first. -/
def readStringFrom (acc : List Char) : Scan String
  | [] => .error .endOfText
  | '\x22' :: rest => .ok (String.ofList acc.reverse, rest)
  | '\\' :: 'u' :: rest =>
      match hexUnit rest with
      | .error f => .error f
      | .ok n =>
          match rest with
          | _ :: _ :: _ :: _ :: rest =>
              if isLowSurrogate n then .error .malformed
              else if isHighSurrogate n then
                match lowSurrogate rest with
                | .error f => .error f
                | .ok low =>
                    match rest with
                    | _ :: _ :: _ :: _ :: _ :: _ :: rest =>
                        readStringFrom (pairChar n low :: acc) rest
                    | _ => .error .endOfText
              else readStringFrom (Char.ofNat n :: acc) rest
          | _ => .error .endOfText
  | ['\\'] => .error .endOfText
  | '\\' :: c :: rest =>
      match escaped c with
      | some c => readStringFrom (c :: acc) rest
      | none => .error .malformed
  | c :: rest => if c < ' ' then .error .malformed else readStringFrom (c :: acc) rest

/-- The string whose opening quote has been taken. -/
def readString : Scan String := readStringFrom []

/-- Skips to the end of the string whose opening quote has been taken. -/
def skipString : List Char → Except Fault (List Char)
  | [] => .error .endOfText
  | '\x22' :: rest => .ok rest
  | '\\' :: 'u' :: rest =>
      match hexUnit rest with
      | .error f => .error f
      | .ok _ =>
          match rest with
          | _ :: _ :: _ :: _ :: rest => skipString rest
          | _ => .error .endOfText
  | ['\\'] => .error .endOfText
  | '\\' :: c :: rest =>
      match escaped c with
      | some _ => skipString rest
      | none => .error .malformed
  | c :: rest => if c < ' ' then .error .malformed else skipString rest

/-! ### Literals -/

/-- Takes the given characters off the front. -/
def takeLiteral : List Char → List Char → Except Fault (List Char)
  | [], rest => .ok rest
  | _ :: _, [] => .error .endOfText
  | c :: cs, d :: rest => if c = d then takeLiteral cs rest else .error .malformed

/-- The literal that begins with a letter, less that letter. -/
def literalTail (c : Char) : Option (List Char) :=
  match c with
  | 'n' => some ['u', 'l', 'l']
  | 't' => some ['r', 'u', 'e']
  | 'f' => some ['a', 'l', 's', 'e']
  | _ => none

/-! ### Numbers -/

/-- The largest integer that a field may hold. -/
def largestCount : Nat := Nat.pow 2 64 - 1

/-- A number in the course of being read: an integer below `2 ^ 64` times a power of ten. -/
structure Scaled where
  significand : Nat
  exponent : Int

/-- Takes up the digits of the part before the point; digits that do not fit the significand any
more raise the exponent. -/
def Scaled.ofDigits (ds : List Char) : Scaled :=
  let (n, extra) := ds.foldl
    (fun (acc : Nat × Nat) d =>
      let next := acc.1 * 10 + (d.toNat - 48)
      if acc.2 = 0 && next ≤ largestCount then (next, 0) else (acc.1, acc.2 + 1))
    (0, 0)
  ⟨n, extra⟩

/-- Takes up the digits of the part behind the point, as far as they fit the significand. -/
def Scaled.addFraction (x : Scaled) : List Char → Scaled
  | [] => x
  | d :: ds =>
      let next := x.significand * 10 + (d.toNat - 48)
      if next ≤ largestCount then Scaled.addFraction ⟨next, x.exponent - 1⟩ ds else x

/-- A number rounded to 53 binary digits, ties to even. -/
def roundTo53 (n : Nat) : Nat :=
  let unit := Nat.pow 2 (n.log2 + 1 - 53)
  let q := n / unit
  let r := n % unit
  (if unit < 2 * r || (unit == 2 * r && q % 2 == 1) then q + 1 else q) * unit

/-- Whether a number is too large for a floating-point number of double precision, computed as the
product of its rounded significand and the rounded power of ten. -/
def Scaled.overflows (x : Scaled) : Bool :=
  x.significand != 0 && 0 ≤ x.exponent
    && (308 < x.exponent
      || Nat.pow 2 1024 - Nat.pow 2 970
        ≤ roundTo53 x.significand * roundTo53 (Nat.pow 10 x.exponent.toNat))

/-- What a number is to a field of integers. -/
inductive Number where
  | count (n : Nat)
  /-- A negative number, a number with a fraction or an exponent, or one that is too large. -/
  | other
deriving DecidableEq

/-- A number that is no count, unless it is too large for any use. -/
def otherNumber (x : Scaled) (rest : List Char) : Except Fault (Number × List Char) :=
  if x.overflows then .error .malformed else .ok (.other, rest)

/-- The digits of an exponent and what they make of the number before it. -/
def readExponentDigits (x : Scaled) (negative : Bool) (s : List Char) :
    Except Fault (Number × List Char) :=
  match s with
  | [] => .error .endOfText
  | c :: _ =>
      if !c.isDigit then .error .malformed
      else
        let ds := s.takeWhile Char.isDigit
        let n : Nat := ds.foldl (fun n d => n * 10 + (d.toNat - 48)) 0
        let exponent := if negative then x.exponent - n else x.exponent + n
        let rest := s.dropWhile Char.isDigit
        if Nat.pow 2 31 ≤ n && (negative || x.significand == 0) then .ok (.other, rest)
        else otherNumber ⟨x.significand, exponent⟩ rest

/-- The exponent behind its letter. -/
def readExponent (x : Scaled) : List Char → Except Fault (Number × List Char)
  | '+' :: rest => readExponentDigits x false rest
  | '-' :: rest => readExponentDigits x true rest
  | s => readExponentDigits x false s

/-- The fraction behind the point, and an exponent. -/
def readFraction (x : Scaled) (s : List Char) : Except Fault (Number × List Char) :=
  match s with
  | [] => .error .endOfText
  | c :: _ =>
      if !c.isDigit then .error .malformed
      else
        let x := x.addFraction (s.takeWhile Char.isDigit)
        match s.dropWhile Char.isDigit with
        | 'e' :: rest => readExponent x rest
        | 'E' :: rest => readExponent x rest
        | rest => otherNumber x rest

/-- What follows the digits before the point. -/
def readNumberTail (negative : Bool) (x : Scaled) (s : List Char) :
    Except Fault (Number × List Char) :=
  match s with
  | '.' :: rest => readFraction x rest
  | 'e' :: rest => readExponent x rest
  | 'E' :: rest => readExponent x rest
  | rest =>
      if x.exponent = 0 then .ok (if negative then .other else .count x.significand, rest)
      else otherNumber x rest

/-- A number without its sign; a zero in front is not followed by another digit. -/
def readUnsigned (negative : Bool) (s : List Char) : Except Fault (Number × List Char) :=
  match s with
  | [] => .error .endOfText
  | c :: rest =>
      if !c.isDigit then .error .malformed
      else if c = '0' then
        match rest with
        | d :: _ => if d.isDigit then .error .malformed else readNumberTail negative ⟨0, 0⟩ rest
        | [] => readNumberTail negative ⟨0, 0⟩ rest
      else
        readNumberTail negative (Scaled.ofDigits (s.takeWhile Char.isDigit))
          (s.dropWhile Char.isDigit)

/-- A number. -/
def readNumber : Scan Number
  | '-' :: rest => readUnsigned true rest
  | s => readUnsigned false s

/-- Skips digits, of which there must be one. -/
def skipDigits (s : List Char) : Except Fault (List Char) :=
  match s with
  | c :: _ => if c.isDigit then .ok (s.dropWhile Char.isDigit) else .error .malformed
  | [] => .error .malformed

/-- Skips the exponent behind its letter. -/
def skipExponent : List Char → Except Fault (List Char)
  | '+' :: rest => skipDigits rest
  | '-' :: rest => skipDigits rest
  | s => skipDigits s

def skipExponentPart : List Char → Except Fault (List Char)
  | 'e' :: rest => skipExponent rest
  | 'E' :: rest => skipExponent rest
  | s => .ok s

/-- Skips a fraction, if there is one, and an exponent, if there is one. -/
def skipFractionPart : List Char → Except Fault (List Char)
  | '.' :: rest => do skipExponentPart (← skipDigits rest)
  | s => skipExponentPart s

/-- Skips a number without its sign. -/
def skipUnsigned : List Char → Except Fault (List Char)
  | '0' :: rest =>
      match rest with
      | d :: _ => if d.isDigit then .error .malformed else skipFractionPart rest
      | [] => .ok []
  | s => do skipFractionPart (← skipDigits s)

/-! ### Values of no interest -/

/-- The two kinds of bracketed values. -/
inductive Bracket where
  | list
  | object
deriving DecidableEq

/-- The bracket at the end. -/
def Bracket.close : Bracket → Char
  | .list => ']'
  | .object => '\x7d'

/-- Skips a value without brackets, which begins with the first character. -/
def skipScalar : List Char → Except Fault (List Char)
  | [] => .error .endOfText
  | '\x22' :: rest => skipString rest
  | '-' :: rest => skipUnsigned rest
  | c :: rest =>
      match literalTail c with
      | some tail => takeLiteral tail rest
      | none => if c.isDigit then skipUnsigned (c :: rest) else .error .malformed

/-- Takes the colon between a key and its value. -/
def takeColon (s : List Char) : Except Fault (List Char) :=
  match dropBlank s with
  | [] => .error .endOfText
  | ':' :: rest => .ok rest
  | _ => .error .malformed

/-- Takes what stands before a value inside brackets: in an object, its key and the colon. -/
def enter (b : Bracket) (s : List Char) : Except Fault (List Char) :=
  match b with
  | .list => .ok s
  | .object =>
      match dropBlank s with
      | [] => .error .endOfText
      | '\x22' :: rest => do takeColon (← skipString rest)
      | _ => .error .malformed

mutual

/-- Skips a value and then all that the open brackets around it, innermost first, still want. -/
def skipInside : Nat → List Bracket → List Char → Except Fault (List Char)
  | 0, _, _ => .error .malformed
  | fuel + 1, stack, s =>
      match dropBlank s with
      | '[' :: rest => skipRest fuel (.list :: stack) false rest
      | '\x7b' :: rest => skipRest fuel (.object :: stack) false rest
      | s =>
          match skipScalar s with
          | .error f => .error f
          | .ok rest => skipRest fuel stack true rest

/-- Skips all that the open brackets want; `afterValue` says whether a value was just read, and not
the bracket that opened. -/
def skipRest : Nat → List Bracket → Bool → List Char → Except Fault (List Char)
  | _, [], _, s => .ok s
  | 0, _ :: _, _, _ => .error .malformed
  | fuel + 1, b :: stack, afterValue, s =>
      match dropBlank s with
      | [] => .error .endOfText
      | c :: rest =>
          if c = b.close then skipRest fuel stack true rest
          else if afterValue && c != ',' then .error .malformed
          else
            match enter b (if afterValue then rest else c :: rest) with
            | .error f => .error f
            | .ok rest => skipInside fuel (b :: stack) rest

end

/-- Skips one value. Every step takes a character or is followed by one that does, so twice the
length of the text is enough of them. -/
def skipValue (s : List Char) : Except Fault (List Char) := skipInside (2 * s.length + 2) [] s

/-- The fault of a text that holds some other value than was wanted. A literal, a number or a string
is read in full, and its own faults come first. -/
def mismatchAt (s : List Char) : Fault :=
  let outcome : Except Fault Unit :=
    match s with
    | [] => .error .endOfText
    | '\x22' :: rest => (readString rest).map fun _ => ()
    | '[' :: _ => .ok ()
    | '\x7b' :: _ => .ok ()
    | '-' :: _ => (readNumber s).map fun _ => ()
    | c :: rest =>
        match literalTail c with
        | some tail => (takeLiteral tail rest).map fun _ => ()
        | none =>
            if c.isDigit then (readNumber s).map fun _ => () else .error .malformed
  match outcome with
  | .error f => f
  | .ok () => .mismatch

end SealedLogin.JsonText
