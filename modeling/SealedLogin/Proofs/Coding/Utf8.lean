import Mathlib.Data.Nat.Bitwise
import Mathlib.Tactic.SplitIfs
import SealedLogin.Bytes.Utf8

/-!
# UTF-8 is read back exactly

`Utf8.decode` undoes `Utf8.encode` and accepts nothing else (`decode_eq_ok_iff`), so two texts with
the same bytes are equal (`encode_injective`). The sequences that are read as a character are those
in `Spells`, and each is exactly what this character is encoded in (`encodeChar_of_spells`); the
conditions on the second byte are what keeps overlong forms, surrogates and numbers past the last
code point out.
-/

namespace SealedLogin.Utf8

/-! ### Bytes as numbers -/

theorem toNat_and_mask {k : Nat} {b m : UInt8} (hm : m.toNat = 2 ^ k - 1) :
    (b &&& m).toNat = b.toNat % 2 ^ k := by
  rw [UInt8.toNat_and, hm, Nat.and_two_pow_sub_one_eq_mod]

theorem width_eq_ite (lead : UInt8) : width lead =
    if lead.toNat < 0x80 then 1
    else if lead.toNat < 0xc2 then 0
    else if lead.toNat < 0xe0 then 2
    else if lead.toNat < 0xf0 then 3
    else if lead.toNat < 0xf5 then 4
    else 0 := by
  simp only [width, UInt8.lt_iff_toNat_lt]
  rfl

theorem width_eq_one_iff {lead : UInt8} : width lead = 1 ↔ lead.toNat < 0x80 := by
  rw [width_eq_ite]
  grind

theorem width_eq_two_iff {lead : UInt8} :
    width lead = 2 ↔ 0xc2 ≤ lead.toNat ∧ lead.toNat < 0xe0 := by
  rw [width_eq_ite]
  grind

theorem width_eq_three_iff {lead : UInt8} :
    width lead = 3 ↔ 0xe0 ≤ lead.toNat ∧ lead.toNat < 0xf0 := by
  rw [width_eq_ite]
  grind

theorem width_eq_four_iff {lead : UInt8} :
    width lead = 4 ↔ 0xf0 ≤ lead.toNat ∧ lead.toNat < 0xf5 := by
  rw [width_eq_ite]
  grind

theorem continues_iff {b : UInt8} : continues b = true ↔ 0x80 ≤ b.toNat ∧ b.toNat < 0xc0 := by
  simp only [continues, Bool.and_eq_true, decide_eq_true_eq, UInt8.le_iff_toNat_le,
    UInt8.lt_iff_toNat_lt]
  rfl

theorem follows_iff {lead b : UInt8} : follows lead b = true ↔
    (0x80 ≤ b.toNat ∧ b.toNat < 0xc0) ∧ (lead.toNat = 0xe0 → 0xa0 ≤ b.toNat)
      ∧ (lead.toNat = 0xed → b.toNat < 0xa0) ∧ (lead.toNat = 0xf0 → 0x90 ≤ b.toNat)
      ∧ (lead.toNat = 0xf4 → b.toNat < 0x90) := by
  simp only [follows, Bool.and_eq_true, Bool.or_eq_true, bne_iff_ne, ne_eq, decide_eq_true_eq,
    continues_iff, UInt8.le_iff_toNat_le, UInt8.lt_iff_toNat_lt, ← UInt8.toNat_inj,
    UInt8.toNat_ofNat]
  simp only [Nat.reducePow, Nat.reduceMod]
  omega

theorem toNat_charOfNat {n : Nat} (h : n.isValidChar) : (Char.ofNat n).toNat = n := by
  rw [Char.ofNat, dif_pos h]
  rfl

theorem isValidChar_toNat (c : Char) : c.toNat.isValidChar := c.valid

/-! ### One character -/

theorem encodeChar_eq_ite (c : Char) : String.utf8EncodeChar c =
    if c.toNat ≤ 0x7f then [UInt8.ofNat c.toNat]
    else if c.toNat ≤ 0x7ff then
      [UInt8.ofNat (c.toNat / 64 % 0x20 + 0xc0), UInt8.ofNat (c.toNat % 0x40 + 0x80)]
    else if c.toNat ≤ 0xffff then
      [UInt8.ofNat (c.toNat / 4096 % 0x10 + 0xe0), UInt8.ofNat (c.toNat / 64 % 0x40 + 0x80),
        UInt8.ofNat (c.toNat % 0x40 + 0x80)]
    else
      [UInt8.ofNat (c.toNat / 262144 % 0x08 + 0xf0), UInt8.ofNat (c.toNat / 4096 % 0x40 + 0x80),
        UInt8.ofNat (c.toNat / 64 % 0x40 + 0x80), UInt8.ofNat (c.toNat % 0x40 + 0x80)] := rfl

theorem ofNat_eq_of_toNat {n : Nat} {b : UInt8} (h : n = b.toNat) : UInt8.ofNat n = b := by
  rw [h, UInt8.ofNat_toNat]

theorem toNat_assemble_one {lead : UInt8} (h : width lead = 1) :
    (assemble 0x7f lead []).toNat = lead.toNat := by
  have hl := width_eq_one_iff.1 h
  have hn : (lead &&& 0x7f).toNat = lead.toNat := by
    rw [toNat_and_mask (k := 7) rfl]
    omega
  rw [assemble, List.foldl_nil, hn, toNat_charOfNat (.inl (by omega))]

theorem toNat_assemble_two {lead b : UInt8} (h : width lead = 2) :
    (assemble 0x1f lead [b]).toNat = lead.toNat % 32 * 64 + b.toNat % 64 := by
  have hl := width_eq_two_iff.1 h
  simp only [assemble, List.foldl_cons, List.foldl_nil, toNat_and_mask (k := 5) (m := 0x1f) rfl,
    toNat_and_mask (k := 6) (m := 0x3f) rfl]
  exact toNat_charOfNat (.inl (by omega))

theorem toNat_assemble_three {lead b c : UInt8} (h : width lead = 3) (hb : follows lead b = true) :
    (assemble 0x0f lead [b, c]).toNat
      = (lead.toNat % 16 * 64 + b.toNat % 64) * 64 + c.toNat % 64 := by
  have hl := width_eq_three_iff.1 h
  have hf := follows_iff.1 hb
  simp only [assemble, List.foldl_cons, List.foldl_nil, toNat_and_mask (k := 4) (m := 0x0f) rfl,
    toNat_and_mask (k := 6) (m := 0x3f) rfl]
  refine toNat_charOfNat ?_
  simp only [Nat.isValidChar]
  omega

theorem toNat_assemble_four {lead b c d : UInt8} (h : width lead = 4)
    (hb : follows lead b = true) :
    (assemble 0x07 lead [b, c, d]).toNat
      = ((lead.toNat % 8 * 64 + b.toNat % 64) * 64 + c.toNat % 64) * 64 + d.toNat % 64 := by
  have hl := width_eq_four_iff.1 h
  have hf := follows_iff.1 hb
  simp only [assemble, List.foldl_cons, List.foldl_nil, toNat_and_mask (k := 3) (m := 0x07) rfl,
    toNat_and_mask (k := 6) (m := 0x3f) rfl]
  refine toNat_charOfNat ?_
  simp only [Nat.isValidChar]
  omega

/-- The sequences of bytes that are read as one character, each with this character. -/
inductive Spells : Bytes → Char → Prop
  | one {lead : UInt8} (hw : width lead = 1) : Spells [lead] (assemble 0x7f lead [])
  | two {lead b : UInt8} (hw : width lead = 2) (hb : follows lead b = true) :
      Spells [lead, b] (assemble 0x1f lead [b])
  | three {lead b c : UInt8} (hw : width lead = 3) (hb : follows lead b = true)
      (hc : continues c = true) : Spells [lead, b, c] (assemble 0x0f lead [b, c])
  | four {lead b c d : UInt8} (hw : width lead = 4) (hb : follows lead b = true)
      (hc : continues c = true) (hd : continues d = true) :
      Spells [lead, b, c, d] (assemble 0x07 lead [b, c, d])

theorem encodeChar_of_spells {front : Bytes} {c : Char} (h : Spells front c) :
    String.utf8EncodeChar c = front := by
  rw [encodeChar_eq_ite]
  cases h with
  | @one lead hw =>
    have hl := width_eq_one_iff.1 hw
    rw [toNat_assemble_one hw, if_pos (by omega), UInt8.ofNat_toNat]
  | @two lead b hw hb =>
    have hl := width_eq_two_iff.1 hw
    have hf := follows_iff.1 hb
    rw [toNat_assemble_two hw, if_neg (by omega), if_pos (by omega),
      ofNat_eq_of_toNat (b := lead) (by omega), ofNat_eq_of_toNat (b := b) (by omega)]
  | @three lead b c hw hb hc =>
    have hl := width_eq_three_iff.1 hw
    have hf := follows_iff.1 hb
    have hc := continues_iff.1 hc
    rw [toNat_assemble_three hw hb, if_neg (by omega), if_neg (by omega), if_pos (by omega),
      ofNat_eq_of_toNat (b := lead) (by omega), ofNat_eq_of_toNat (b := b) (by omega),
      ofNat_eq_of_toNat (b := c) (by omega)]
  | @four lead b c d hw hb hc hd =>
    have hl := width_eq_four_iff.1 hw
    have hf := follows_iff.1 hb
    have hc := continues_iff.1 hc
    have hd := continues_iff.1 hd
    rw [toNat_assemble_four hw hb, if_neg (by omega), if_neg (by omega), if_neg (by omega),
      ofNat_eq_of_toNat (b := lead) (by omega), ofNat_eq_of_toNat (b := b) (by omega),
      ofNat_eq_of_toNat (b := c) (by omega), ofNat_eq_of_toNat (b := d) (by omega)]

/-! The numbers of the bytes that spell a character are the pieces of its own number, six bits for
each byte behind the lead. -/

theorem spells_one {lead : UInt8} {c : Char} (h : c.toNat ≤ 0x7f) (hlead : lead.toNat = c.toNat) :
    Spells [lead] c := by
  have hw : width lead = 1 := by
    rw [width_eq_one_iff]
    omega
  have hc : assemble 0x7f lead [] = c := by
    rw [← Char.toNat_inj, toNat_assemble_one hw, hlead]
  exact hc ▸ Spells.one hw

theorem spells_two {lead x : UInt8} {c : Char} (hlow : 0x7f < c.toNat) (hhigh : c.toNat ≤ 0x7ff)
    (hlead : lead.toNat = c.toNat / 64 + 0xc0) (hx : x.toNat = c.toNat % 64 + 0x80) :
    Spells [lead, x] c := by
  have hw : width lead = 2 := by
    rw [width_eq_two_iff]
    omega
  have hf : follows lead x = true := by
    rw [follows_iff]
    omega
  have hc : assemble 0x1f lead [x] = c := by
    rw [← Char.toNat_inj, toNat_assemble_two hw]
    omega
  exact hc ▸ Spells.two hw hf

theorem spells_three {lead x y : UInt8} {c : Char} (hlow : 0x7ff < c.toNat)
    (hhigh : c.toNat ≤ 0xffff) (hlead : lead.toNat = c.toNat / 4096 + 0xe0)
    (hx : x.toNat = c.toNat / 64 % 64 + 0x80) (hy : y.toNat = c.toNat % 64 + 0x80) :
    Spells [lead, x, y] c := by
  have hv := isValidChar_toNat c
  simp only [Nat.isValidChar] at hv
  have hw : width lead = 3 := by
    rw [width_eq_three_iff]
    omega
  -- No surrogate is a character, which is what `follows` asks of the byte behind `0xed`.
  have hf : follows lead x = true := by
    rw [follows_iff]
    omega
  have hy' : continues y = true := by
    rw [continues_iff]
    omega
  have hc : assemble 0x0f lead [x, y] = c := by
    rw [← Char.toNat_inj, toNat_assemble_three hw hf]
    omega
  exact hc ▸ Spells.three hw hf hy'

theorem spells_four {lead x y z : UInt8} {c : Char} (hlow : 0xffff < c.toNat)
    (hlead : lead.toNat = c.toNat / 262144 + 0xf0) (hx : x.toNat = c.toNat / 4096 % 64 + 0x80)
    (hy : y.toNat = c.toNat / 64 % 64 + 0x80) (hz : z.toNat = c.toNat % 64 + 0x80) :
    Spells [lead, x, y, z] c := by
  have hv := isValidChar_toNat c
  simp only [Nat.isValidChar] at hv
  have hw : width lead = 4 := by
    rw [width_eq_four_iff]
    omega
  have hf : follows lead x = true := by
    rw [follows_iff]
    omega
  have hy' : continues y = true := by
    rw [continues_iff]
    omega
  have hz' : continues z = true := by
    rw [continues_iff]
    omega
  have hc : assemble 0x07 lead [x, y, z] = c := by
    rw [← Char.toNat_inj, toNat_assemble_four hw hf]
    omega
  exact hc ▸ Spells.four hw hf hy' hz'

theorem toNat_ofNat_of_eq {n m : Nat} (h : n = m) (hlt : m < 256) : (UInt8.ofNat n).toNat = m := by
  rw [UInt8.toNat_ofNat', h, Nat.mod_eq_of_lt hlt]

theorem spells_encodeChar (c : Char) : Spells (String.utf8EncodeChar c) c := by
  have hv := isValidChar_toNat c
  simp only [Nat.isValidChar] at hv
  rw [encodeChar_eq_ite]
  split_ifs with h1 h2 h3
  · exact spells_one h1 (toNat_ofNat_of_eq rfl (by omega))
  · refine spells_two (by omega) h2 ?_ ?_ <;> exact toNat_ofNat_of_eq (by omega) (by omega)
  · refine spells_three (by omega) h3 ?_ ?_ ?_ <;> exact toNat_ofNat_of_eq (by omega) (by omega)
  · refine spells_four (by omega) ?_ ?_ ?_ ?_ <;> exact toNat_ofNat_of_eq (by omega) (by omega)

/-! ### Whole texts -/

/-- A sequence in front that spells a character is read as this character. -/
theorem decodeFrom_of_spells {front : Bytes} {c : Char} (h : Spells front c) (index : Nat)
    (acc : List Char) (rest : Bytes) : decodeFrom index acc (front ++ rest)
      = decodeFrom (index + front.length) (c :: acc) rest := by
  rw [decodeFrom.eq_def]
  cases h with
  | one hw => simp only [List.cons_append, List.nil_append, hw, List.length_singleton]
  | two hw hb => simp [hw, hb]
  | three hw hb hc => simp [hw, hb, hc]
  | four hw hb hc hd => simp [hw, hb, hc, hd]

theorem decodeFrom_flatMap (index : Nat) (acc cs : List Char) :
    decodeFrom index acc (cs.flatMap String.utf8EncodeChar) = .ok (acc.reverse ++ cs) := by
  induction cs generalizing index acc with
  | nil => rw [List.flatMap_nil, decodeFrom, List.append_nil]
  | cons c cs ih =>
    rw [List.flatMap_cons, decodeFrom_of_spells (spells_encodeChar c), ih, List.reverse_cons,
      List.append_assoc]
    rfl

/-- One more character was read in front of the others. -/
theorem exists_read_cons {acc cs : List Char} {c : Char} {front rest : Bytes}
    (hc : Spells front c)
    (h : ∃ read, cs = (c :: acc).reverse ++ read ∧ rest = read.flatMap String.utf8EncodeChar) :
    ∃ read, cs = acc.reverse ++ read ∧ front ++ rest = read.flatMap String.utf8EncodeChar := by
  obtain ⟨read, hcs, hrest⟩ := h
  refine ⟨c :: read, ?_, ?_⟩
  · rw [hcs, List.reverse_cons, List.append_assoc]
    rfl
  · rw [List.flatMap_cons, encodeChar_of_spells hc, hrest]

/-- What is read from a string is characters whose bytes are the string. -/
theorem eq_flatMap_of_decodeFrom {index : Nat} {acc cs : List Char} {b : Bytes}
    (h : decodeFrom index acc b = .ok cs) :
    ∃ read, cs = acc.reverse ++ read ∧ b = read.flatMap String.utf8EncodeChar := by
  fun_induction decodeFrom index acc b with
  | case1 =>
    cases h
    exact ⟨[], by simp, rfl⟩
  | case2 index acc lead rest hw ih => exact exists_read_cons (.one hw) (ih h)
  | case4 index acc lead hw b rest hb ih => exact exists_read_cons (.two hw hb) (ih h)
  | case9 index acc lead hw b hb c rest hc ih =>
    exact exists_read_cons (.three hw (by simpa using hb) hc) (ih h)
  | case16 index acc lead hw b hb c hc d rest hd ih =>
    exact exists_read_cons (.four hw (by simpa using hb) (by simpa using hc) hd) (ih h)
  | _ => cases h

@[simp] theorem decode_encode (s : String) : decode (encode s) = .ok s := by
  rw [decode, encode, decodeFrom_flatMap]
  simp [Except.map]

/-- A string is read as a text exactly if it consists of the bytes of that text. -/
theorem decode_eq_ok_iff {b : Bytes} {s : String} : decode b = .ok s ↔ b = encode s := by
  constructor
  · intro h
    rcases hd : decodeFrom 0 [] b with _ | cs
    · rw [decode, hd] at h
      cases h
    · obtain ⟨read, rfl, rfl⟩ := eq_flatMap_of_decodeFrom hd
      rw [decode, hd] at h
      cases h
      simp [encode]
  · rintro rfl
    exact decode_encode s

theorem encode_injective {s t : String} (h : encode s = encode t) : s = t := by
  have hs := decode_encode s
  rw [h, decode_encode] at hs
  cases hs
  rfl

theorem length_encode_le (s : String) : (encode s).length ≤ 4 * s.length := by
  rw [encode, ← String.length_toList]
  induction s.toList with
  | nil => exact Nat.zero_le _
  | cons c cs ih =>
    have hc := Char.utf8Size_le_four c
    rw [List.flatMap_cons, List.length_append, String.length_utf8EncodeChar, List.length_cons]
    omega

theorem length_le_utf8ByteSize (cs : List Char) : cs.length ≤ (String.ofList cs).utf8ByteSize := by
  induction cs with
  | nil => exact Nat.zero_le _
  | cons c cs ih =>
    have hc := Char.utf8Size_pos c
    rw [String.ofList_cons, String.utf8ByteSize_append, String.utf8ByteSize_singleton,
      List.length_cons]
    omega

theorem utf8ByteSize_le (cs : List Char) : (String.ofList cs).utf8ByteSize ≤ 4 * cs.length := by
  induction cs with
  | nil => exact Nat.zero_le _
  | cons c cs ih =>
    have hc := Char.utf8Size_le_four c
    rw [String.ofList_cons, String.utf8ByteSize_append, String.utf8ByteSize_singleton,
      List.length_cons]
    omega

end SealedLogin.Utf8
