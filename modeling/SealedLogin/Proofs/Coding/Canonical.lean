import Mathlib.Data.List.Forall2
import SealedLogin.Proofs.Coding.Hex
import SealedLogin.Proofs.Coding.Records
import SealedLogin.Proofs.Computations

/-!
# Records have one written form

A byte string is a list of records exactly if it is these records as each is written, one after
another (`Record.Concatenates`), and it is so for at most one list. Hence nothing can be cut off the
written form of a record or put behind it (`isDecodeError_of_cut`, `isDecodeError_of_extended`). A
record in hexadecimal has one written form but for the case of its letters; the texts that spell
bytes at all are those of an even number of digits (`Hex.exists_spells_iff`).
-/

namespace SealedLogin

/-! ### Texts that spell bytes -/

namespace Hex

/-- A digit of either case. -/
def IsDigit (c : Char) : Prop := c ∈ "0123456789abcdefABCDEF".toList

theorem isDigit_iff {c : Char} : IsDigit c ↔ ∃ n < 16, c.toLower = digit n := by
  constructor
  · have key : ("0123456789abcdefABCDEF".toList.all fun c =>
        (List.range 16).any fun n => c.toLower == digit (UInt8.ofNat n)) = true := by
      decide +kernel
    intro h
    obtain ⟨n, hn, hc⟩ := List.any_eq_true.1 (List.all_eq_true.1 key c h)
    rw [List.mem_range] at hn
    refine ⟨UInt8.ofNat n, ?_, eq_of_beq hc⟩
    rw [UInt8.lt_iff_toNat_lt, UInt8.toNat_ofNat']
    exact Nat.lt_of_le_of_lt (Nat.mod_le n _) hn
  · rintro ⟨n, hn, hc⟩
    have key : ∀ m < 128, ∀ n < 16, (Char.ofNat m).toLower = digit (UInt8.ofNat n) →
        Char.ofNat m ∈ "0123456789abcdefABCDEF".toList := by decide +kernel
    have hascii := toNat_le_of_toLower hc (of_lt_sixteen hn).2.2.1
    have := key c.toNat hascii n.toNat (UInt8.lt_iff_toNat_lt.1 hn)
    rw [Char.ofNat_toNat, UInt8.ofNat_toNat] at this
    exact this hc

/-- Characters that are digits, two for every byte, spell some bytes. -/
theorem exists_flatMap_of_isDigit (k : Nat) {cs : List Char} (hlength : cs.length = 2 * k)
    (h : ∀ c ∈ cs, IsDigit c) : ∃ b : Bytes, cs.map Char.toLower = b.flatMap encodeByte := by
  induction k generalizing cs with
  | zero =>
    rw [List.length_eq_zero_iff.1 hlength]
    exact ⟨[], rfl⟩
  | succ k ih =>
    match cs with
    | [] | [_] =>
      simp only [List.length_nil, List.length_singleton] at hlength
      omega
    | c :: d :: cs =>
      obtain ⟨m, hm, hc⟩ := isDigit_iff.1 (h c (by simp))
      obtain ⟨n, hn, hd⟩ := isDigit_iff.1 (h d (by simp))
      simp only [List.length_cons] at hlength
      obtain ⟨b, hb⟩ := @ih cs (by omega) fun c hc => h c (by simp [hc])
      refine ⟨(m <<< 4 ||| n) :: b, ?_⟩
      simp [hc, hd, hb, encodeByte_pair hm hn]

theorem length_flatMap_encodeByte (b : Bytes) : (b.flatMap encodeByte).length = 2 * b.length := by
  rw [← length_encode, encode, String.length_ofList]

theorem exists_spells_iff {text : String} : (∃ b, Spells text b) ↔
    text.length % 2 = 0 ∧ ∀ c ∈ text.toList, IsDigit c := by
  constructor
  · rintro ⟨b, h⟩
    constructor
    · have hlength := congrArg List.length h
      rw [List.length_map, length_flatMap_encodeByte, String.length_toList] at hlength
      omega
    · intro c hc
      have hmem : c.toLower ∈ b.flatMap encodeByte := by
        rw [← h]
        exact List.mem_map_of_mem hc
      obtain ⟨n, hn, hdigit⟩ := exists_digit_of_mem_encode (b := b) (c := c.toLower)
        (by rwa [encode, String.toList_ofList])
      exact isDigit_iff.2 ⟨n, hn, hdigit⟩
  · rintro ⟨heven, h⟩
    refine exists_flatMap_of_isDigit (text.length / 2) ?_ h
    rw [String.length_toList]
    omega

/-- A text that spells bytes is what they are encoded in, but for the case of its letters. -/
theorem encode_eq_toLower {text : String} {b : Bytes} (h : Spells text b) :
    encode b = text.toLower := by
  have hlower : text.toLower = text.map Char.toLower := rfl
  rw [encode, ← h, hlower, ← String.toList_inj, String.toList_ofList, String.toList_map]

end Hex

namespace Record

/-! ### Records one after another -/

/-- The bytes are the given records as each is written, one after another. -/
def Concatenates (rs : List Record) (b : Bytes) : Prop :=
  ∃ pieces, List.Forall₂ (fun r piece => marshal r = .ok piece) rs pieces ∧ b = pieces.flatten

theorem marshalAll_eq_ok_iff {rs : List Record} {b : Bytes} :
    marshalAll rs = .ok b ↔ Concatenates rs b := by
  induction rs generalizing b with
  | nil => simp [marshalAll, Concatenates, eq_comm]
  | cons r rs ih =>
    rw [marshalAll_cons_eq_ok_iff]
    constructor
    · rintro ⟨w, v, hw, hv, rfl⟩
      obtain ⟨pieces, hpieces, rfl⟩ := ih.1 hv
      exact ⟨w :: pieces, .cons hw hpieces, rfl⟩
    · rintro ⟨_, hpieces, rfl⟩
      cases hpieces with
      | cons hw hpieces => exact ⟨_, _, hw, ih.2 ⟨_, hpieces, rfl⟩, rfl⟩

theorem combine_eq_ok_iff {rs : List Record} {r : Record} :
    combine rs = .ok r ↔ Concatenates rs r.value := by
  rw [← marshalAll_eq_ok_iff, combine, map_eq_ok_iff]
  constructor
  · rintro ⟨b, hb, rfl⟩
    exact hb
  · intro h
    exact ⟨r.value, h, rfl⟩

theorem combine_injective {rs ss : List Record} {r : Record} (hr : combine rs = .ok r)
    (hs : combine ss = .ok r) : rs = ss := by
  rw [← expand_eq_ok_iff] at hr hs
  rw [hr] at hs
  exact Except.ok.inj hs

/-- Records can be combined if each of them can be written, however long they are together. -/
theorem exists_combine {rs : List Record} (h : ∀ r ∈ rs, r.value.length < sizeLimit) :
    ∃ outer, combine rs = .ok outer := by
  induction rs with
  | nil => exact ⟨⟨[]⟩, rfl⟩
  | cons r rs ih =>
    obtain ⟨outer, houter⟩ := ih fun s hs => h s (by simp [hs])
    obtain ⟨pieces, hpieces, -⟩ := combine_eq_ok_iff.1 houter
    have hw : marshal r = .ok (Bytes.ofNatBE 4 r.value.length ++ r.value) :=
      marshal_eq_ok_iff.2 ⟨h r (by simp), rfl⟩
    exact ⟨⟨_⟩, combine_eq_ok_iff.2 ⟨_, .cons hw hpieces, rfl⟩⟩

/-- What is left after a record was read is shorter by the length field at least. -/
theorem length_of_readFront {r : Record} {b rest : Bytes} (h : readFront b = (.ok r, rest)) :
    rest.length + 4 ≤ b.length := by
  obtain ⟨w, hw, rfl⟩ := eq_append_of_readFront h
  have hlength := length_marshal hw
  simp only [encodedLength] at hlength
  rw [List.length_append]
  omega

/-! ### Cut and extended records -/

/-- The bytes are refused as one record. -/
def IsDecodeError (b : Bytes) : Prop :=
  ∃ e, ProtocolError.ofRead (unmarshal b) = .error e ∧ e.code = "DECODE_ERROR"

theorem isDecodeError_iff {b : Bytes} : IsDecodeError b ↔ ∀ r, marshal r ≠ .ok b := by
  simp only [IsDecodeError, ← unmarshal_eq_ok_iff, ne_eq]
  cases unmarshal b with
  | ok r => simp [ProtocolError.ofRead]
  | error f => simp [ProtocolError.ofRead, ProtocolError.code]

/-- Two records of which one begins with the other are equal. -/
theorem eq_of_isPrefix {r s : Record} {b w : Bytes} (hr : marshal r = .ok b)
    (hs : marshal s = .ok w) (h : b <+: w) : b = w := by
  obtain ⟨more, rfl⟩ := h
  have hread := readFront_append hr more
  have hwhole := readFront_append hs []
  rw [List.append_nil, hread] at hwhole
  cases hwhole
  rw [List.append_nil]

theorem isDecodeError_of_cut {r : Record} {b w : Bytes} (h : marshal r = .ok w) (hb : b <+: w)
    (hne : b ≠ w) : IsDecodeError b :=
  isDecodeError_iff.2 fun _ hs => hne (eq_of_isPrefix hs h hb)

theorem isDecodeError_of_extended {r : Record} {b w : Bytes} (h : marshal r = .ok w) (hb : w <+: b)
    (hne : b ≠ w) : IsDecodeError b :=
  isDecodeError_iff.2 fun _ hs => hne (eq_of_isPrefix h hs hb).symm

/-! ### Hexadecimal -/

theorem ofHex_eq_ok_iff {text : String} {r : Record} :
    ofHex text = .ok r ↔ ∃ b, Hex.Spells text b ∧ marshal r = .ok b := by
  simp only [ofHex, ← Hex.decode_eq_ok_iff, ← unmarshal_eq_ok_iff]
  cases Hex.decode text <;> simp

theorem toHex_of_ofHex {text : String} {r : Record} (h : ofHex text = .ok r) :
    toHex r = .ok text.toLower := by
  obtain ⟨b, hspells, hb⟩ := ofHex_eq_ok_iff.1 h
  rw [toHex, hb, ← Hex.encode_eq_toLower hspells]
  rfl

/-! ### The grammar -/

/-- A value is split into records exactly if it is these records as they are written one after
another, which is so for one list only, and combining them gives the value back; every record that
is read takes four bytes or more. One record is read exactly from what it is written as, so that
nothing may be missing from it or follow it. Records that can be written can be combined, in one way
only, and are split again. A text holds a record exactly if it has an even number of hexadecimal
digits whose bytes are the record, which is written in the same digits in lower case. -/
theorem grammar_canonical :
    (∀ v rs, expand ⟨v⟩ = .ok rs ↔ Concatenates rs v)
    ∧ (∀ v rs, expand ⟨v⟩ = .ok rs → combine rs = .ok ⟨v⟩ ∧ ∀ ss, Concatenates ss v → ss = rs)
    ∧ (∀ b r rest, readFront b = (.ok r, rest) → rest.length + 4 ≤ b.length)
    ∧ (∀ b r, unmarshal b = .ok r ↔ marshal r = .ok b)
    ∧ (∀ rs : List Record, (∀ r ∈ rs, r.value.length < sizeLimit) →
      ∃ outer, combine rs = .ok outer ∧ outer.expand = .ok rs)
    ∧ (∀ rs ss outer, combine rs = .ok outer → combine ss = .ok outer → rs = ss)
    ∧ (∀ r w b, marshal r = .ok w → b <+: w ∨ w <+: b → b ≠ w → IsDecodeError b)
    ∧ (∀ text, (∃ r, ofHex text = .ok r) ↔ text.length % 2 = 0
      ∧ (∀ c ∈ text.toList, Hex.IsDigit c) ∧ ∃ b r, Hex.Spells text b ∧ marshal r = .ok b)
    ∧ ∀ text r, ofHex text = .ok r → toHex r = .ok text.toLower := by
  have hexpand : ∀ v rs, expand ⟨v⟩ = .ok rs ↔ Concatenates rs v := fun v rs => by
    rw [expand_eq_ok_iff, combine_eq_ok_iff]
  refine ⟨hexpand, ?_, fun _ _ _ => length_of_readFront, fun _ _ => unmarshal_eq_ok_iff, ?_,
    fun _ _ _ => combine_injective, ?_, ?_, fun _ _ => toHex_of_ofHex⟩
  · intro v rs h
    refine ⟨expand_eq_ok_iff.1 h, fun ss hss => ?_⟩
    rw [← hexpand, h] at hss
    exact (Except.ok.inj hss).symm
  · intro rs h
    obtain ⟨outer, houter⟩ := exists_combine h
    exact ⟨outer, houter, expand_eq_ok_iff.2 houter⟩
  · intro r w b h hb hne
    rcases hb with hb | hb
    · exact isDecodeError_of_cut h hb hne
    · exact isDecodeError_of_extended h hb hne
  · intro text
    constructor
    · rintro ⟨r, hr⟩
      obtain ⟨b, hspells, hb⟩ := ofHex_eq_ok_iff.1 hr
      obtain ⟨heven, hdigits⟩ := Hex.exists_spells_iff.1 ⟨b, hspells⟩
      exact ⟨heven, hdigits, b, r, hspells, hb⟩
    · rintro ⟨-, -, b, r, hspells, hb⟩
      exact ⟨r, ofHex_eq_ok_iff.2 ⟨b, hspells, hb⟩⟩

end Record

end SealedLogin
