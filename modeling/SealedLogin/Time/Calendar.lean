/-!
# The Gregorian calendar

Dates of the proleptic Gregorian calendar and the days they are from the beginning of 1970. Years
are counted from March on, so that the day a leap year adds is the last of its year:
`daysBeforeMarch y` days lie between the first of March of year zero and that of year `y`.
-/

namespace SealedLogin

/-- A date. -/
structure Date where
  year : Int
  month : Nat
  day : Nat
deriving DecidableEq, Repr, Inhabited

namespace Date

/-- Whether a year has 366 days. -/
def isLeapYear (y : Int) : Bool := y % 4 == 0 && (y % 100 != 0 || y % 400 == 0)

/-- The days of a month; none for a number that is no month. -/
def daysInMonth (y : Int) (m : Nat) : Nat :=
  match m with
  | 2 => if isLeapYear y then 29 else 28
  | 4 | 6 | 9 | 11 => 30
  | 1 | 3 | 5 | 7 | 8 | 10 | 12 => 31
  | _ => 0

/-- Whether the calendar has the date. -/
def isValid (d : Date) : Bool := 1 ≤ d.day && d.day ≤ daysInMonth d.year d.month

/-- The days from the first of March of year zero to the first of March of year `y`. -/
def daysBeforeMarch (y : Int) : Int := 365 * y + y / 4 - y / 100 + y / 400

/-- The days from the first of March of year zero to the beginning of 1970. -/
def epoch : Int := 719468

/-- The days from the first of March to the first of the `m`th month after it. -/
def daysBeforeMonth (m : Nat) : Nat := (153 * m + 2) / 5

/-- The days from the beginning of 1970 to a date. -/
def toDays (d : Date) : Int :=
  if d.month ≤ 2 then
    daysBeforeMarch (d.year - 1) + daysBeforeMonth (d.month + 9) + (d.day : Int) - 1 - epoch
  else
    daysBeforeMarch d.year + daysBeforeMonth (d.month - 3) + (d.day : Int) - 1 - epoch

/-- The year, counted from March, in which day `n` after the first of March of year zero lies: a
first guess from the mean length of a year is wrong by one year at most. -/
def marchYear (n : Int) : Int :=
  let guess := n * 400 / 146097
  if n < daysBeforeMarch guess then guess - 1
  else if daysBeforeMarch (guess + 1) ≤ n then guess + 1
  else guess

/-- The date a number of days after the beginning of 1970. -/
def ofDays (days : Int) : Date :=
  let n := days + epoch
  let y := marchYear n
  let dayOfYear := (n - daysBeforeMarch y).toNat
  let m := (5 * dayOfYear + 2) / 153
  let day := dayOfYear - daysBeforeMonth m + 1
  if m < 10 then ⟨y, m + 3, day⟩ else ⟨y + 1, m - 9, day⟩

end Date

end SealedLogin
