import SealedLogin.Text.Decimal

/-!
# Numbers that somebody typed

A number is typed in decimal digits, at least one, which a plus sign may precede (`Text.IsCount`).
`Text.readCount` reads exactly these, if the number is below the limit: it stops at the first digit
that takes the number there, since further digits make no number smaller (`le_ofDigitChars`).
-/

namespace SealedLogin.Text

variable {limit n m : Nat} {cs : List Char} {text : String}

/-- The text spells the number. -/
def IsCount (text : String) (n : Nat) : Prop :=
  ∃ digits : List Char, digits ≠ [] ∧ (∀ c ∈ digits, c.isDigit = true)
    ∧ (text.toList = digits ∨ text.toList = '+' :: digits) ∧ n = Nat.ofDigitChars 10 digits 0

theorem le_ofDigitChars (cs : List Char) (n : Nat) : n ≤ Nat.ofDigitChars 10 cs n := by
  rw [Nat.ofDigitChars_eq_ofDigitChars_zero]
  have := Nat.le_mul_of_pos_left n (Nat.pow_pos (n := cs.length) (by decide : 0 < 10))
  omega

theorem readCountFrom_eq_ok_iff : readCountFrom limit n cs = .ok m ↔
    (∀ c ∈ cs, c.isDigit = true) ∧ m = Nat.ofDigitChars 10 cs n ∧ (cs = [] ∨ m < limit) := by
  induction cs generalizing n with
  | nil =>
    rw [readCountFrom, Except.ok.injEq]
    exact ⟨fun h => ⟨nofun, h.symm, .inl rfl⟩, fun h => h.2.1.symm⟩
  | cons c cs ih =>
    rw [readCountFrom, Nat.ofDigitChars_cons]
    by_cases hc : c.isDigit = true
    · have hnext : n * 10 + (c.toNat - 48) = 10 * n + (c.toNat - '0'.toNat) := by
        rw [Nat.mul_comm]
        rfl
      have hle := le_ofDigitChars cs (10 * n + (c.toNat - '0'.toNat))
      simp only [hc, hnext, Bool.not_true, Bool.false_eq_true, if_false]
      by_cases hlimit : limit ≤ 10 * n + (c.toNat - '0'.toNat)
      · rw [if_pos hlimit]
        refine iff_of_false nofun ?_
        rintro ⟨-, rfl, h⟩
        have := h.resolve_left (List.cons_ne_nil c cs)
        omega
      · rw [if_neg hlimit, ih]
        constructor
        · rintro ⟨hdigits, rfl, h⟩
          refine ⟨List.forall_mem_cons.2 ⟨hc, hdigits⟩, rfl, .inr ?_⟩
          rcases h with rfl | h
          · exact Nat.lt_of_not_le hlimit
          · exact h
        · rintro ⟨hdigits, rfl, h⟩
          refine ⟨(List.forall_mem_cons.1 hdigits).2, rfl, .inr ?_⟩
          exact h.resolve_left (List.cons_ne_nil c cs)
    · rw [if_pos (by simp [hc])]
      refine iff_of_false nofun ?_
      rintro ⟨hdigits, -, -⟩
      exact hc (List.forall_mem_cons.1 hdigits).1

theorem readCount_eq_ok_iff : readCount limit text = .ok m ↔ IsCount text m ∧ m < limit := by
  have hplus : ∀ digits : List Char, ¬∀ c ∈ '+' :: digits, c.isDigit = true := fun _ h =>
    absurd (List.forall_mem_cons.1 h).1 (by decide)
  unfold readCount IsCount
  split
  · next h =>
    refine iff_of_false nofun ?_
    rintro ⟨⟨digits, hne, -, hdigits | hdigits, -⟩, -⟩
    · exact hne (hdigits ▸ h)
    · rw [h] at hdigits
      cases hdigits
  · next h =>
    refine iff_of_false nofun ?_
    rintro ⟨⟨digits, hne, hall, hdigits | hdigits, -⟩, -⟩
    · exact hplus [] (by rwa [← h, hdigits])
    · rw [h] at hdigits
      cases hdigits
      exact hne rfl
  · next digits hne h =>
    rw [readCountFrom_eq_ok_iff]
    constructor
    · rintro ⟨hall, rfl, hlt⟩
      exact ⟨⟨digits, hne, hall, .inr h, rfl⟩, hlt.resolve_left hne⟩
    · rintro ⟨⟨digits', -, hall, hdigits | hdigits, rfl⟩, hlt⟩
      · exact absurd (by rwa [← h, hdigits]) (hplus digits)
      · rw [h] at hdigits
        cases hdigits
        exact ⟨hall, rfl, .inr hlt⟩
  · next hnil _ hplain =>
    rw [readCountFrom_eq_ok_iff]
    constructor
    · rintro ⟨hall, rfl, hlt⟩
      exact ⟨⟨text.toList, hnil, hall, .inl rfl, rfl⟩, hlt.resolve_left hnil⟩
    · rintro ⟨⟨digits, -, hall, hdigits | hdigits, rfl⟩, hlt⟩
      · rw [hdigits]
        exact ⟨hall, rfl, .inr hlt⟩
      · exact absurd hdigits (hplain digits)

/-- A text spells one number at most. -/
theorem IsCount.unique (hn : IsCount text n) (hm : IsCount text m) : n = m := by
  have hreadn := readCount_eq_ok_iff.2 ⟨hn, Nat.lt_succ_of_le (Nat.le_max_left n m)⟩
  have hreadm := readCount_eq_ok_iff.2 ⟨hm, Nat.lt_succ_of_le (Nat.le_max_right n m)⟩
  rw [hreadn] at hreadm
  exact Except.ok.inj hreadm

end SealedLogin.Text
