import Mathlib.Tactic.SplitIfs
import SealedLogin.Bytes.Hex
import SealedLogin.Proofs.Coding.Utf8

/-!
# Hexadecimal text is read exactly

A text spells a byte string (`Hex.Spells`) if, but for the case of its letters, it is what
`Hex.encode` writes. `Hex.decode` reads exactly these texts (`decode_eq_ok_iff`). Single digits are
checked one by one over all bytes; longer texts follow pair by pair.
-/

namespace SealedLogin.Hex

/-- The text is the encoding of the bytes, but for the case of its letters. -/
def Spells (text : String) (b : Bytes) : Prop :=
  text.toList.map Char.toLower = b.flatMap encodeByte

/-! ### Digits -/

/-- The digits that are written. -/
def digits : List Char := "0123456789abcdef".toList

theorem of_digitValue {x h : UInt8} (hx : digitValue x = some h) :
    h < 16 ∧ x.toNat < 128 ∧ (Char.ofNat x.toNat).toLower = digit h := by
  have key : ∀ n < 256, ∀ h, digitValue (UInt8.ofNat n) = some h →
      h < 16 ∧ n < 128 ∧ (Char.ofNat n).toLower = digit h := by decide +kernel
  exact key x.toNat x.toNat_lt h (by rwa [UInt8.ofNat_toNat])

theorem of_lt_sixteen {h : UInt8} (hh : h < 16) :
    digit h ∈ digits ∧ (digit h).toLower = digit h ∧ (digit h).toNat < 128
      ∧ ∀ m < 128, (Char.ofNat m).toLower = digit h → digitValue (UInt8.ofNat m) = some h := by
  have key : ∀ n < 16, digit (UInt8.ofNat n) ∈ digits
      ∧ (digit (UInt8.ofNat n)).toLower = digit (UInt8.ofNat n)
      ∧ (digit (UInt8.ofNat n)).toNat < 128
      ∧ ∀ m < 128, (Char.ofNat m).toLower = digit (UInt8.ofNat n) →
          digitValue (UInt8.ofNat m) = some (UInt8.ofNat n) := by decide +kernel
  have := key h.toNat (UInt8.lt_iff_toNat_lt.1 hh)
  rwa [UInt8.ofNat_toNat] at this

theorem encodeByte_pair {h l : UInt8} (hh : h < 16) (hl : l < 16) :
    encodeByte (h <<< 4 ||| l) = [digit h, digit l] := by
  have key : ∀ m < 16, ∀ n < 16, encodeByte (UInt8.ofNat m <<< 4 ||| UInt8.ofNat n)
      = [digit (UInt8.ofNat m), digit (UInt8.ofNat n)] := by decide +kernel
  have := key h.toNat (UInt8.lt_iff_toNat_lt.1 hh) l.toNat (UInt8.lt_iff_toNat_lt.1 hl)
  rwa [UInt8.ofNat_toNat, UInt8.ofNat_toNat] at this

theorem nibbles (b : UInt8) :
    b >>> 4 < 16 ∧ b &&& 15 < 16 ∧ (b >>> 4) <<< 4 ||| (b &&& 15) = b := by
  have key : ∀ n < 256, UInt8.ofNat n >>> 4 < 16 ∧ UInt8.ofNat n &&& 15 < 16
      ∧ (UInt8.ofNat n >>> 4) <<< 4 ||| (UInt8.ofNat n &&& 15) = UInt8.ofNat n := by
    decide +kernel
  have := key b.toNat b.toNat_lt
  rwa [UInt8.ofNat_toNat] at this

theorem toNat_le_of_toLower {c d : Char} (h : c.toLower = d) (hd : d.toNat < 128) :
    c.toNat < 128 := by
  subst h
  unfold Char.toLower at hd
  split at hd
  · next h =>
    have := UInt32.le_iff_toNat_le.1 h.2
    exact Nat.lt_of_le_of_lt this (by decide)
  · exact hd

/-- A character that is a digit in lower case is one byte, which has the value of the digit. -/
theorem digitValue_of_toLower {c : Char} {h : UInt8} (hh : h < 16) (hc : c.toLower = digit h) :
    String.utf8EncodeChar c = [UInt8.ofNat c.toNat]
      ∧ digitValue (UInt8.ofNat c.toNat) = some h := by
  obtain ⟨-, -, hd, hvalue⟩ := of_lt_sixteen hh
  have hlt := toNat_le_of_toLower hc hd
  refine ⟨?_, ?_⟩
  · rw [Utf8.encodeChar_eq_ite, if_pos (by omega)]
  · exact hvalue c.toNat hlt (by rwa [Char.ofNat_toNat])

/-! ### Pairs -/

/-- A text that spells bytes has two bytes of its own for each of them, and is read as them. -/
theorem decodePairs_of_spells (position : Nat) (acc b : Bytes) {cs : List Char}
    (h : cs.map Char.toLower = b.flatMap encodeByte) :
    (cs.flatMap String.utf8EncodeChar).length = 2 * b.length
      ∧ decodePairs position acc (cs.flatMap String.utf8EncodeChar) = .ok (acc.reverse ++ b) := by
  induction b generalizing position acc cs with
  | nil =>
    obtain rfl : cs = [] := List.map_eq_nil_iff.1 h
    refine ⟨rfl, ?_⟩
    rw [List.flatMap_nil, decodePairs.eq_def, List.append_nil]
  | cons x b ih =>
    obtain ⟨hx1, hx2, hx⟩ := nibbles x
    rw [List.flatMap_cons, encodeByte, List.cons_append, List.cons_append, List.nil_append] at h
    obtain ⟨c, cs, rfl, hc, h⟩ := List.map_eq_cons_iff.1 h
    obtain ⟨d, cs, rfl, hd, h⟩ := List.map_eq_cons_iff.1 h
    obtain ⟨hc1, hc2⟩ := digitValue_of_toLower hx1 hc
    obtain ⟨hd1, hd2⟩ := digitValue_of_toLower hx2 hd
    obtain ⟨hlength, hread⟩ := ih (position + 2) (x :: acc) h
    rw [List.flatMap_cons, List.flatMap_cons, hc1, hd1, List.cons_append, List.nil_append,
      List.cons_append, List.nil_append]
    refine ⟨?_, ?_⟩
    · simp only [List.length_cons, hlength]
      omega
    · rw [decodePairs, hc2, hd2]
      simp only
      rw [hx, hread, List.reverse_cons, List.append_assoc]
      rfl

/-- A byte below 128 in front of a text is its first character. -/
theorem exists_cons_of_flatMap {cs : List Char} {x : UInt8} {rest : Bytes} (hx : x.toNat < 128)
    (h : x :: rest = cs.flatMap String.utf8EncodeChar) :
    ∃ cs', cs = Char.ofNat x.toNat :: cs' ∧ rest = cs'.flatMap String.utf8EncodeChar := by
  cases cs with
  | nil => cases h
  | cons c cs =>
    have hv := Utf8.isValidChar_toNat c
    simp only [Nat.isValidChar] at hv
    rw [List.flatMap_cons, Utf8.encodeChar_eq_ite] at h
    split_ifs at h with h1 h2 h3
    · simp only [List.cons_append, List.nil_append, List.cons.injEq] at h
      obtain ⟨rfl, rfl⟩ := h
      refine ⟨cs, ?_, rfl⟩
      rw [UInt8.toNat_ofNat', Nat.mod_eq_of_lt (by omega), Char.ofNat_toNat]
    all_goals
      simp only [List.cons_append, List.cons.injEq] at h
      have := congrArg UInt8.toNat h.1
      rw [UInt8.toNat_ofNat'] at this
      omega

theorem spells_of_decodePairs {position : Nat} {acc bs out : Bytes} {cs : List Char}
    (hcs0 : bs = cs.flatMap String.utf8EncodeChar) (even : bs.length % 2 = 0)
    (h : decodePairs position acc bs = .ok out) :
    ∃ b, out = acc.reverse ++ b ∧ cs.map Char.toLower = b.flatMap encodeByte := by
  fun_induction decodePairs position acc bs generalizing cs with
  | case1 => cases h
  | case2 => cases h
  | case3 position acc hi lo rest u l hl hu ih =>
    obtain ⟨hu16, hhi, hulower⟩ := of_digitValue hu
    obtain ⟨hl16, hlo, hllower⟩ := of_digitValue hl
    obtain ⟨cs, rfl, hcs⟩ := exists_cons_of_flatMap hhi hcs0
    obtain ⟨cs, rfl, hrest⟩ := exists_cons_of_flatMap hlo hcs
    simp only [List.length_cons] at even
    obtain ⟨b, hout, hb⟩ := ih hrest (by omega) h
    refine ⟨(u <<< 4 ||| l) :: b, ?_, ?_⟩
    · rw [hout, List.reverse_cons, List.append_assoc]
      rfl
    · rw [List.map_cons, List.map_cons, hulower, hllower, hb, List.flatMap_cons,
        encodeByte_pair hu16 hl16]
      rfl
  | case4 bs position acc short =>
    cases h
    match bs, cs with
    | [], [] => exact ⟨[], by simp, rfl⟩
    | [], c :: cs => simp [String.utf8EncodeChar_ne_nil] at hcs0
    | [x], _ => simp at even
    | hi :: lo :: rest, _ => exact (short hi lo rest rfl).elim

/-! ### Texts -/

/-- A text is read as bytes exactly if it spells them. -/
theorem decode_eq_ok_iff {text : String} {b : Bytes} : decode text = .ok b ↔ Spells text b := by
  rw [decode, decodeBytes, Utf8.encode]
  constructor
  · intro h
    split at h
    · cases h
    · next even =>
      obtain ⟨b', hb, hs⟩ := spells_of_decodePairs rfl (by omega) h
      obtain rfl : b = b' := hb
      exact hs
  · intro h
    obtain ⟨hlength, hread⟩ := decodePairs_of_spells 0 [] b h
    rw [if_neg (by omega)]
    exact hread

theorem spells_encode (b : Bytes) : Spells (encode b) b := by
  have key (x : UInt8) : (encodeByte x).map Char.toLower = encodeByte x := by
    obtain ⟨h1, h2, -⟩ := nibbles x
    simp only [encodeByte, List.map_cons, List.map_nil, (of_lt_sixteen h1).2.1,
      (of_lt_sixteen h2).2.1]
  simp only [Spells, encode, String.toList_ofList, List.map_flatMap, key]

@[simp] theorem decode_encode (b : Bytes) : decode (encode b) = .ok b :=
  decode_eq_ok_iff.2 (spells_encode b)

/-! ### What is written -/

theorem exists_digit_of_mem_encode {b : Bytes} {c : Char} (h : c ∈ (encode b).toList) :
    ∃ n < 16, c = digit n := by
  rw [encode, String.toList_ofList, List.mem_flatMap] at h
  obtain ⟨x, -, h⟩ := h
  obtain ⟨hhigh, hlow, -⟩ := nibbles x
  simp only [encodeByte, List.mem_cons, List.not_mem_nil, or_false] at h
  rcases h with rfl | rfl
  · exact ⟨x >>> 4, hhigh, rfl⟩
  · exact ⟨x &&& 15, hlow, rfl⟩

theorem mem_digits_of_mem_encode {b : Bytes} {c : Char} (h : c ∈ (encode b).toList) :
    c ∈ digits := by
  obtain ⟨n, hn, rfl⟩ := exists_digit_of_mem_encode h
  exact (of_lt_sixteen hn).1

theorem length_encode (b : Bytes) : (encode b).length = 2 * b.length := by
  rw [encode, String.length_ofList]
  induction b with
  | nil => rfl
  | cons x b ih =>
    rw [List.flatMap_cons, List.length_append, ih, List.length_cons, encodeByte, List.length_cons,
      List.length_cons, List.length_nil]
    omega

theorem encode_ne_empty {b : Bytes} (h : b ≠ []) : encode b ≠ "" := by
  intro heq
  have hlength := length_encode b
  rw [heq, String.length_empty] at hlength
  exact h (List.length_eq_zero_iff.1 (by omega))

end SealedLogin.Hex
