/-!
# Instants and durations

An instant of the wall clock counts seconds since 1970 and the nanoseconds of its second. In a leap
second, which follows the last second of a minute, the count of seconds stands still and the
nanoseconds run on from one thousand million. `Instant.since` is the distance of two instants, and
`Instant.isFresh` compares it with a duration.
-/

namespace SealedLogin

/-- A length of time in nanoseconds. -/
abbrev Duration := Nat

namespace Duration

def nanosPerSecond : Nat := 1000000000

/-- A length of time in seconds. -/
def ofSeconds (s : Nat) : Duration := s * nanosPerSecond

/-- The whole seconds of a length of time. -/
def seconds (d : Duration) : Nat := d / nanosPerSecond

/-- The longest window of freshness, the number of milliseconds that 63 bits hold. A longer one
means the same: no two instants are further apart. -/
def longestWindow : Duration := (Nat.pow 2 63 - 1) * 1000000

end Duration

/-- An instant of the wall clock. -/
structure Instant where
  /-- Seconds since the beginning of 1970. -/
  seconds : Int
  /-- Nanoseconds of the second; from one thousand million on in a leap second. -/
  nanos : Nat
deriving DecidableEq, Repr, Inhabited

namespace Instant

/-- Whether the instant lies in a leap second. -/
def isLeap (t : Instant) : Bool := Duration.nanosPerSecond ≤ t.nanos

/-- The seconds since the last midnight. -/
def secondOfDay (t : Instant) : Int := t.seconds % 86400

/-- Nanoseconds since the beginning of 1970, leap seconds counted on top of the second before. -/
def total (t : Instant) : Int := t.seconds * Duration.nanosPerSecond + t.nanos

/-- The nanoseconds by which `t` is later than `s`. A leap second counts in full for an instant that
comes after it in its day. -/
def since (t s : Instant) : Int :=
  t.total - s.total
    + (if s.isLeap && s.secondOfDay < t.secondOfDay then (Duration.nanosPerSecond : Int) else 0)
    - (if t.isLeap && t.secondOfDay < s.secondOfDay then (Duration.nanosPerSecond : Int) else 0)

/-- Whether two instants are no further apart than `window` allows. -/
def isFresh (stamped now : Instant) (window : Duration) : Bool :=
  (now.since stamped).natAbs ≤ min window Duration.longestWindow

/-- The instant with the fraction of its second cut off. -/
def wholeSecond (t : Instant) : Instant :=
  ⟨t.seconds, if t.isLeap then Duration.nanosPerSecond else 0⟩

/-- The instant a number of nanoseconds later, on a clock without leap seconds. -/
def later (t : Instant) (nanos : Int) : Instant :=
  let n := t.total + nanos
  ⟨n / Duration.nanosPerSecond, (n % Duration.nanosPerSecond).toNat⟩

end Instant

end SealedLogin
