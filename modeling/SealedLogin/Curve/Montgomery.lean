import SealedLogin.Bytes
import SealedLogin.Curve.Field

/-!
# The Montgomery form

Multiplication on the curve `v² = u³ + 486662 u² + u` by the `u` coordinate alone, as RFC 7748 has
it: scalars are clamped, the top bit of `u` is dropped and `u` is taken modulo the prime.
-/

namespace SealedLogin.Curve

/-- A scalar of 32 bytes as a multiple of eight with bit 254 its highest. -/
def clamp (b : Bytes) : Nat :=
  let n := Bytes.toNatLE b % Nat.pow 2 254
  n - n % 8 + Nat.pow 2 254

namespace Montgomery

/-- The state of the ladder: two multiples of the point that differ by the point, as ratios. -/
structure Ladder where
  x2 : Elt
  z2 : Elt
  x3 : Elt
  z3 : Elt

/-- The two multiples exchanged. -/
def Ladder.swap (s : Ladder) : Ladder := ⟨s.x3, s.z3, s.x2, s.z2⟩

/-- Doubles the first multiple and adds both into the second. -/
def Ladder.step (u : Elt) (s : Ladder) : Ladder :=
  let a := s.x2 + s.z2
  let aa := a * a
  let b := s.x2 - s.z2
  let bb := b * b
  let e := aa - bb
  let da := (s.x3 - s.z3) * a
  let cb := (s.x3 + s.z3) * b
  ⟨aa * bb, e * (aa + Elt.ofNat 121665 * e), (da + cb) * (da + cb), u * ((da - cb) * (da - cb))⟩

/-- One step for one bit of the scalar. -/
def Ladder.bit (u : Elt) (s : Ladder) (b : Bool) : Ladder :=
  if b then (s.swap.step u).swap else s.step u

/-- The `u` coordinate of the `n`-fold of the point with coordinate `u`, for `n` below `2 ^ 255`. -/
def multiply (n : Nat) (u : Elt) : Elt :=
  let start : Ladder := ⟨Elt.ofNat 1, Elt.ofNat 0, u, Elt.ofNat 1⟩
  let s := (List.range 255).foldl (fun s i => s.bit u (n.testBit (254 - i))) start
  s.x2 * Elt.inv s.z2

/-- The product of a secret and a coordinate, both of 32 bytes. -/
def shared (secret u : Bytes) : Bytes :=
  Bytes.ofNatLE 32 (multiply (clamp secret) (Elt.ofNat (Bytes.toNatLE u % Nat.pow 2 255))).val

/-- The coordinate of the base point. -/
def base : Bytes := Bytes.ofNatLE 32 9

@[simp] theorem length_shared (secret u : Bytes) : (shared secret u).length = 32 := by
  simp [shared]

end Montgomery

end SealedLogin.Curve
