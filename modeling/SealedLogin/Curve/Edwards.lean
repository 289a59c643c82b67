import SealedLogin.Bytes
import SealedLogin.Curve.Field

/-!
# The twisted Edwards form

The curve `-x² + y² = 1 + d x² y²`, its points in extended coordinates, and their encoding in 32
bytes: the number `y`, least significant byte first, with the lowest bit of `x` on top. Reading an
encoding reduces `y` modulo the prime, and takes `x = 0` with either sign.
-/

namespace SealedLogin.Curve

/-- The constant `d` of the curve equation, `-121665 / 121666`. -/
def edwardsD : Elt := (Elt.ofNat 0 - Elt.ofNat 121665) * Elt.inv (Elt.ofNat 121666)

/-- The order of the base point. -/
def groupOrder : Nat := Nat.pow 2 252 + 27742317777372353535851937790883648493

/-- A point as `x = X / Z`, `y = Y / Z` with `T = X Y / Z`. -/
structure Point where
  X : Elt
  Y : Elt
  Z : Elt
  T : Elt

namespace Point

/-- The point with the given coordinates. -/
def ofAffine (x y : Elt) : Point := ⟨x, y, Elt.ofNat 1, x * y⟩

/-- The neutral element. -/
def zero : Point := ofAffine (Elt.ofNat 0) (Elt.ofNat 1)

/-- The sum of two points; the formula holds for equal points too. -/
def add (p q : Point) : Point :=
  let a := (p.Y - p.X) * (q.Y - q.X)
  let b := (p.Y + p.X) * (q.Y + q.X)
  let c := p.T * Elt.ofNat 2 * edwardsD * q.T
  let d := p.Z * Elt.ofNat 2 * q.Z
  let e := b - a
  let f := d - c
  let g := d + c
  let h := b + a
  ⟨e * f, g * h, f * g, e * h⟩

/-- The point with the opposite `x`. -/
def neg (p : Point) : Point := ⟨Elt.ofNat 0 - p.X, p.Y, p.Z, Elt.ofNat 0 - p.T⟩

/-- The `n`-fold sum of a point. -/
def smul (n : Nat) (p : Point) : Point :=
  if n = 0 then zero
  else
    let half := smul (n / 2) p
    let even := half.add half
    if n % 2 = 1 then even.add p else even
termination_by n

/-- Whether a point is the neutral element. -/
def isZero (p : Point) : Bool := p.X == Elt.ofNat 0 && p.Y == p.Z

/-- Whether the order of a point divides the cofactor eight. -/
def hasSmallOrder (p : Point) : Bool := (smul 8 p).isZero

/-- The 32-byte encoding. -/
def encode (p : Point) : Bytes :=
  let zInv := Elt.inv p.Z
  let x := p.X * zInv
  let y := p.Y * zInv
  Bytes.ofNatLE 32 (y.val + if x.isOdd then Nat.pow 2 255 else 0)

/-- The point that 32 bytes encode, if any. -/
def decode (b : Bytes) : Option Point :=
  let n := Bytes.toNatLE b
  let y := Elt.ofNat (n % Nat.pow 2 255)
  let y2 := y * y
  (Elt.sqrtRatio (y2 - Elt.ofNat 1) (edwardsD * y2 + Elt.ofNat 1)).map fun x =>
    ofAffine (if x.isOdd == decide (Nat.pow 2 255 ≤ n) then x else Elt.ofNat 0 - x) y

/-- The base point: `y = 4/5` and `x` even. -/
def base : Point :=
  let y := Elt.ofNat 4 * Elt.inv (Elt.ofNat 5)
  (decode (Bytes.ofNatLE 32 y.val)).getD zero

@[simp] theorem length_encode (p : Point) : p.encode.length = 32 := by simp [encode]

end Point

end SealedLogin.Curve
