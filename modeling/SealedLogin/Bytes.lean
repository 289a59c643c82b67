/-!
# Byte strings

Byte strings are lists, so that a proof can take them apart. `ofNatLE` and `ofNatBE` spell a number
in a fixed number of bytes, `toNatLE` and `toNatBE` read it back, and `chunks` cuts a string into
pieces of one length.
-/

namespace SealedLogin

/-- A byte string. -/
abbrev Bytes := List UInt8

namespace Bytes

/-! ### Numbers -/

/-- The `width` low bytes of a number, least significant first. -/
def ofNatLE : Nat → Nat → Bytes
  | 0, _ => []
  | width + 1, n => UInt8.ofNat n :: ofNatLE width (n / 256)

/-- The number that bytes spell, least significant first. -/
def toNatLE (b : Bytes) : Nat := b.foldr (fun x n => x.toNat + 256 * n) 0

/-- The `width` low bytes of a number, most significant first. -/
def ofNatBE (width n : Nat) : Bytes := (ofNatLE width n).reverse

/-- The number that bytes spell, most significant first. -/
def toNatBE (b : Bytes) : Nat := toNatLE b.reverse

@[simp] theorem length_ofNatLE (width n : Nat) : (ofNatLE width n).length = width := by
  induction width generalizing n <;> simp [ofNatLE, *]

@[simp] theorem length_ofNatBE (width n : Nat) : (ofNatBE width n).length = width := by
  simp [ofNatBE]

theorem toNatLE_ofNatLE (width n : Nat) (h : n < Nat.pow 256 width) :
    toNatLE (ofNatLE width n) = n := by
  induction width generalizing n with
  | zero => simp at h; simp [ofNatLE, toNatLE, h]
  | succ width ih =>
      have hd : n / 256 < Nat.pow 256 width := (Nat.div_lt_iff_lt_mul (by decide)).2 h
      have := ih _ hd
      simp only [toNatLE] at this
      simp only [ofNatLE, toNatLE, List.foldr_cons, this, UInt8.toNat_ofNat']
      omega

theorem toNatBE_ofNatBE (width n : Nat) (h : n < Nat.pow 256 width) :
    toNatBE (ofNatBE width n) = n := by
  simp [toNatBE, ofNatBE, toNatLE_ofNatLE _ _ h]

theorem toNatLE_lt (b : Bytes) : toNatLE b < Nat.pow 256 b.length := by
  induction b with
  | nil => simp [toNatLE]
  | cons x b ih =>
      have := x.toNat_lt
      simp only [toNatLE] at ih
      have hp : Nat.pow 256 (x :: b).length = Nat.pow 256 b.length * 256 := rfl
      simp only [toNatLE, List.foldr_cons, hp]
      omega

theorem ofNatLE_toNatLE (b : Bytes) : ofNatLE b.length (toNatLE b) = b := by
  induction b with
  | nil => rfl
  | cons x b ih =>
      have hx := x.toNat_lt
      simp only [toNatLE] at ih
      simp only [toNatLE, List.foldr_cons, List.length_cons, ofNatLE]
      have hdiv : (x.toNat + 256 * List.foldr (fun x n => x.toNat + 256 * n) 0 b) / 256
          = List.foldr (fun x n => x.toNat + 256 * n) 0 b := by omega
      rw [hdiv, ih]
      congr 1
      apply UInt8.toNat_inj.1
      simp

theorem ofNatBE_toNatBE (b : Bytes) : ofNatBE b.length (toNatBE b) = b := by
  have := ofNatLE_toNatLE b.reverse
  rw [List.length_reverse] at this
  simp [ofNatBE, toNatBE, this]

/-! ### Pieces -/

/-- The string cut into pieces of `n` bytes, the last one possibly shorter; nothing for `n = 0`. -/
def chunks (n : Nat) (b : Bytes) : List Bytes :=
  if n = 0 ∨ b = [] then []
  else b.take n :: chunks n (b.drop n)
termination_by b.length
decreasing_by
  rename_i h
  have : b.length ≠ 0 := fun hb => h (.inr (List.length_eq_zero_iff.1 hb))
  simp only [List.length_drop]
  omega

/-- Bytes combined place by place by exclusive or, as far as the shorter string goes. -/
def xor (a b : Bytes) : Bytes := a.zipWith (· ^^^ ·) b

/-- Equality of strings in a time that depends on their lengths alone: every pair of bytes is
compared and the differences are collected. -/
def equal (a b : Bytes) : Bool :=
  a.length == b.length && (a.zip b).foldl (fun diff p => diff ||| (p.1 ^^^ p.2)) 0 == 0

end Bytes

end SealedLogin
