import SealedLogin.Bytes.Base64

/-!
# Base64 read back

`Base64.encode` writes bytes in the standard alphabet without padding; `Base64.decode?` gives them
back.
-/

namespace SealedLogin.Base64

/-- The characters for the numbers below 64. -/
def alphabet : List Char :=
  "ABCDEFGHIJKLMNOPQRSTUVWXYZabcdefghijklmnopqrstuvwxyz0123456789+/".toList

/-- The character for a number below 64. -/
def symbol (n : Nat) : Char := alphabet.getD n 'A'

/-- The numbers that bytes are written as, six bits each. -/
def sextets : Bytes → List Nat
  | [] => []
  | [a] => [a.toNat / 4, a.toNat % 4 * 16]
  | [a, b] => [a.toNat / 4, a.toNat % 4 * 16 + b.toNat / 16, b.toNat % 16 * 4]
  | a :: b :: c :: rest =>
      a.toNat / 4 :: (a.toNat % 4 * 16 + b.toNat / 16) :: (b.toNat % 16 * 4 + c.toNat / 64)
        :: c.toNat % 64 :: sextets rest

/-- The text that bytes are written as. -/
def encode (b : Bytes) : String := String.ofList ((sextets b).map symbol)

theorem sextet?_symbol {n : Nat} (h : n < 64) : sextet? (symbol n) = some n := by
  revert n
  decide +kernel

theorem symbol_mem_alphabet (n : Nat) : symbol n ∈ alphabet := by
  rw [symbol, List.getD_eq_getElem?_getD]
  by_cases h : n < alphabet.length
  · rw [List.getElem?_eq_getElem h]
    exact List.getElem_mem h
  · rw [List.getElem?_eq_none (Nat.le_of_not_lt h)]
    decide

theorem lt_of_mem_sextets (b : Bytes) : ∀ n ∈ sextets b, n < 64 := by
  induction b using sextets.induct with
  | case1 => nofun
  | case2 a =>
    have ha := a.toNat_lt
    simp only [sextets, List.mem_cons, List.not_mem_nil, or_false]
    rintro n (rfl | rfl) <;> omega
  | case3 a b =>
    have ha := a.toNat_lt
    have hb := b.toNat_lt
    simp only [sextets, List.mem_cons, List.not_mem_nil, or_false]
    rintro n (rfl | rfl | rfl) <;> omega
  | case4 a b c rest ih =>
    have ha := a.toNat_lt
    have hb := b.toNat_lt
    have hc := c.toNat_lt
    simp only [sextets, List.mem_cons]
    rintro n (rfl | rfl | rfl | rfl | hrest)
    · omega
    · omega
    · omega
    · omega
    · exact ih n hrest

theorem join_sextets (b : Bytes) : join (sextets b) = some b := by
  induction b using sextets.induct with
  | case1 => rfl
  | case2 a =>
    have ha : a.toNat / 4 * 4 + a.toNat % 4 * 16 / 16 = Bytes.toNatBE [a] := by
      simp [Bytes.toNatBE, Bytes.toNatLE]
      omega
    rw [sextets, join, if_pos (by omega), ha]
    exact congrArg some (Bytes.ofNatBE_toNatBE [a])
  | case3 a b =>
    have hb := b.toNat_lt
    have hab : (a.toNat / 4 * 64 + (a.toNat % 4 * 16 + b.toNat / 16)) * 16 + b.toNat % 16 * 4 / 4
        = Bytes.toNatBE [a, b] := by
      simp [Bytes.toNatBE, Bytes.toNatLE]
      omega
    rw [sextets, join, if_pos (by omega), hab]
    exact congrArg some (Bytes.ofNatBE_toNatBE [a, b])
  | case4 a b c rest ih =>
    have hb := b.toNat_lt
    have hc := c.toNat_lt
    have habc : ((a.toNat / 4 * 64 + (a.toNat % 4 * 16 + b.toNat / 16)) * 64
        + (b.toNat % 16 * 4 + c.toNat / 64)) * 64 + c.toNat % 64 = Bytes.toNatBE [a, b, c] := by
      simp [Bytes.toNatBE, Bytes.toNatLE]
      omega
    rw [sextets, join, ih, habc, Option.map_some]
    exact congrArg (fun front => some (front ++ rest)) (Bytes.ofNatBE_toNatBE [a, b, c])

theorem mapM_sextet?_symbol (ns : List Nat) (h : ∀ n ∈ ns, n < 64) :
    (ns.map symbol).mapM sextet? = some ns := by
  induction ns with
  | nil => rfl
  | cons n ns ih =>
    rw [List.map_cons, List.mapM_cons, sextet?_symbol (h n (.head _)),
      ih fun m hm => h m (.tail _ hm)]
    rfl

theorem decode?_encode (b : Bytes) : decode? (encode b) = some b := by
  rw [decode?, encode, String.toList_ofList, mapM_sextet?_symbol _ (lt_of_mem_sextets b)]
  exact join_sextets b

theorem mem_alphabet_of_mem_encode {b : Bytes} {c : Char} (h : c ∈ (encode b).toList) :
    c ∈ alphabet := by
  rw [encode, String.toList_ofList] at h
  obtain ⟨n, -, rfl⟩ := List.mem_map.1 h
  exact symbol_mem_alphabet n

end SealedLogin.Base64
