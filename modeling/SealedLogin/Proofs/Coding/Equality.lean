import SealedLogin.Bytes

/-!
# Equality in constant time

`Bytes.equal` collects the differences of all pairs of bytes; it holds exactly for equal strings
(`equal_iff`).
-/

namespace SealedLogin.Bytes

theorem or_eq_zero_iff {x y : UInt8} : x ||| y = 0 ↔ x = 0 ∧ y = 0 := by
  rw [← UInt8.toNat_inj, ← UInt8.toNat_inj, ← UInt8.toNat_inj, UInt8.toNat_or]
  exact Nat.or_eq_zero_iff

/-- The collected differences vanish exactly if there were none before and the pairs are equal. -/
theorem foldl_differences_eq_zero_iff (diff : UInt8) (pairs : List (UInt8 × UInt8)) :
    pairs.foldl (fun diff p => diff ||| (p.1 ^^^ p.2)) diff = 0 ↔
      diff = 0 ∧ ∀ p ∈ pairs, p.1 = p.2 := by
  induction pairs generalizing diff with
  | nil => simp
  | cons p pairs ih =>
    rw [List.foldl_cons, ih, or_eq_zero_iff, UInt8.xor_eq_zero_iff, List.forall_mem_cons, and_assoc]

theorem forall_zip_iff {a b : Bytes} (hlength : a.length = b.length) :
    (∀ p ∈ a.zip b, p.1 = p.2) ↔ a = b := by
  induction a generalizing b with
  | nil =>
    cases b with
    | nil => simp
    | cons y b => cases hlength
  | cons x a ih =>
    cases b with
    | nil => cases hlength
    | cons y b =>
      rw [List.zip_cons_cons, List.forall_mem_cons, ih (Nat.succ.inj hlength), List.cons.injEq]

theorem equal_iff {a b : Bytes} : equal a b = true ↔ a = b := by
  rw [equal, Bool.and_eq_true, beq_iff_eq, beq_iff_eq, foldl_differences_eq_zero_iff]
  constructor
  · rintro ⟨hlength, -, h⟩
    exact (forall_zip_iff hlength).1 h
  · intro h
    have hlength := congrArg List.length h
    exact ⟨hlength, rfl, (forall_zip_iff hlength).2 h⟩

end SealedLogin.Bytes
