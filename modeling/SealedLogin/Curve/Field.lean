/-!
# The field of order 2^255 - 19

Numbers below the prime with arithmetic modulo the prime; powers, inverses and square roots of
ratios are what the two forms of the curve need beyond the ring operations.
-/

namespace SealedLogin.Curve

/-- The order of the field. -/
def prime : Nat := Nat.pow 2 255 - 19

theorem prime_pos : 0 < prime := by decide

/-- A field element. -/
abbrev Elt := Fin prime

namespace Elt

/-- The element of a number. -/
def ofNat (n : Nat) : Elt := ⟨n % prime, Nat.mod_lt n prime_pos⟩

/-- The `n`th power, by repeated squaring. -/
def power (x : Elt) (n : Nat) : Elt :=
  if n = 0 then ofNat 1
  else
    let half := power x (n / 2)
    if n % 2 = 1 then half * half * x else half * half
termination_by n

/-- The inverse of an element other than zero; zero for zero. -/
def inv (x : Elt) : Elt := power x (prime - 2)

/-- Whether the element is odd as a number below the prime. -/
def isOdd (x : Elt) : Bool := x.val % 2 == 1

/-- A square root of minus one. -/
def sqrtMinusOne : Elt := power (ofNat 2) ((prime - 1) / 4)

/-- A square root of `u / v`, where there is one. -/
def sqrtRatio (u v : Elt) : Option Elt :=
  let v3 := v * v * v
  let root := u * v3 * power (u * v3 * v3 * v) ((prime - 5) / 8)
  let square := v * root * root
  if square = u then some root
  else if square = ofNat 0 - u then some (root * sqrtMinusOne)
  else none

end Elt

end SealedLogin.Curve
