import SealedLogin.Bytes.Utf8
import SealedLogin.Text.Decimal
import SealedLogin.Time.Calendar
import SealedLogin.Time.Instant

/-!
# Time stamps

Instants in the text form of RFC 3339. `Stamp.print` writes an instant in UTC; `Stamp.read` accepts
any offset and any number of digits of a fraction, and a second sixty as the leap second after
second fifty-nine. Years outside 0 to 9999 are written with a sign and are not read back.
-/

namespace SealedLogin.Stamp

/-! ### Writing -/

/-- The digits of a year: four, or a sign and at least four outside 0 to 9999. -/
def yearDigits (y : Int) : List Char :=
  if 0 ≤ y ∧ y ≤ 9999 then Text.paddedDigits 4 y.toNat
  else (if y < 0 then '-' else '+') :: Text.paddedDigits 4 y.natAbs

/-- The seconds to show with an instant: those of its minute, sixty in a leap second. -/
def shownSecond (t : Instant) : Nat :=
  (t.seconds % 60).toNat + if t.isLeap then 1 else 0

/-- Date and time of day in UTC, to the second. -/
def dateTime (t : Instant) : List Char :=
  let date := Date.ofDays (t.seconds / 86400)
  let second := t.secondOfDay.toNat
  yearDigits date.year ++ '-' :: Text.paddedDigits 2 date.month
    ++ '-' :: Text.paddedDigits 2 date.day
    ++ 'T' :: Text.paddedDigits 2 (second / 3600)
    ++ ':' :: Text.paddedDigits 2 (second / 60 % 60)
    ++ ':' :: Text.paddedDigits 2 (shownSecond t)

/-- The fraction of the second, in the fewest of zero, three, six and nine digits. -/
def fraction (t : Instant) : List Char :=
  let n := t.nanos % Duration.nanosPerSecond
  if n = 0 then []
  else if n % 1000000 = 0 then '.' :: Text.paddedDigits 3 (n / 1000000)
  else if n % 1000 = 0 then '.' :: Text.paddedDigits 6 (n / 1000)
  else '.' :: Text.paddedDigits 9 n

/-- The instant to the second, with `Z` for UTC. -/
def print (t : Instant) : String := String.ofList (dateTime t ++ ['Z'])

/-- The instant in full, with the given text for UTC. -/
def printFull (t : Instant) (zone : String) : String :=
  String.ofList (dateTime t ++ fraction t ++ zone.toList)

/-! ### Reading -/

/-- Why a text is no time stamp. -/
inductive Fault where
  | tooShort
  | invalid
  | outOfRange
  | trailing
deriving DecidableEq, Repr

def Fault.message : Fault → String
  | .tooShort => "premature end of input"
  | .invalid => "input contains invalid characters"
  | .outOfRange => "input is out of range"
  | .trailing => "trailing input"

/-- The number that digits spell, or the given fault. -/
def digits (ds : Bytes) : Except Fault Nat :=
  match Text.readNat? ds with
  | some n => .ok n
  | none => .error .invalid

/-- Demands a condition, or fails. -/
def demand (condition : Bool) (fault : Fault) : Except Fault Unit :=
  if condition then .ok () else .error fault

/-- The fraction of a second behind a point, in nanoseconds; digits past nine are dropped. -/
def readFraction : Bytes → Except Fault (Nat × Bytes)
  | 46 :: rest =>
      match rest with
      | [] => .error .tooShort
      | d :: _ =>
          if Text.isDigitByte d then
            let ds := (rest.takeWhile Text.isDigitByte).take 9
            .ok (Text.digitsValue ds * Nat.pow 10 (9 - ds.length), rest.dropWhile Text.isDigitByte)
          else .error .invalid
  | rest => .ok (0, rest)

/-- The sign of an offset, which may be a hyphen or a minus sign. -/
def readSign : Bytes → Except Fault (Int × Bytes)
  | [] => .error .tooShort
  | 43 :: rest => .ok (1, rest)
  | 45 :: rest => .ok (-1, rest)
  | 0xe2 :: 0x88 :: 0x92 :: rest => .ok (-1, rest)
  | _ => .error .invalid

/-- The hours and minutes of an offset, in seconds. -/
def readOffsetSize : Bytes → Except Fault (Nat × Bytes)
  | h1 :: h2 :: rest => do
      let hours ← digits [h1, h2]
      match rest with
      | [] => .error .tooShort
      | 58 :: m1 :: m2 :: rest =>
          if Text.isDigitByte m1 && Text.isDigitByte m2 then
            demand (m1 ≤ 53) .outOfRange
            .ok (hours * 3600 + Text.digitsValue [m1, m2] * 60, rest)
          else .error .invalid
      | 58 :: _ => .error .tooShort
      | _ => .error .invalid
  | _ => .error .tooShort

/-- The offset from UTC in seconds. -/
def readOffset : Bytes → Except Fault (Int × Bytes)
  | 90 :: rest => .ok (0, rest)
  | 122 :: rest => .ok (0, rest)
  | b => do
      let (sign, b) ← readSign b
      let (size, b) ← readOffsetSize b
      .ok (sign * size, b)

/-- The instant that the bytes of a time stamp name. -/
def read : Bytes → Except Fault Instant
  | y1 :: y2 :: y3 :: y4 :: dash1 :: m1 :: m2 :: dash2 :: d1 :: d2 :: t :: h1 :: h2 :: colon1 :: i1
      :: i2 :: colon2 :: s1 :: s2 :: rest => do
      let year ← digits [y1, y2, y3, y4]
      let month ← digits [m1, m2]
      let day ← digits [d1, d2]
      demand (dash1 == 45 && dash2 == 45) .invalid
      let date : Date := ⟨year, month, day⟩
      demand date.isValid .outOfRange
      demand (t == 84 || t == 116 || t == 32) .invalid
      let hour ← digits [h1, h2]
      let minute ← digits [i1, i2]
      let second ← digits [s1, s2]
      demand (colon1 == 58 && colon2 == 58) .invalid
      let (nanos, rest) ← readFraction rest
      demand (hour < 24 && minute < 60 && second ≤ 60) .outOfRange
      let (offset, rest) ← readOffset rest
      demand rest.isEmpty .trailing
      demand (offset.natAbs < 86400) .outOfRange
      let leap := second == 60
      .ok {
        seconds := date.toDays * 86400 + hour * 3600 + minute * 60
          + (if leap then 59 else second) - offset
        nanos := nanos + if leap then Duration.nanosPerSecond else 0 }
  | _ => .error .tooShort

end SealedLogin.Stamp
