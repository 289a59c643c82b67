import SealedLogin.Record

/-!
# Records are read exactly

What `Record.unmarshal` and `Record.expand` accept is what `Record.marshal` and `Record.combine`
write, and nothing else (`unmarshal_eq_ok_iff`, `expand_eq_ok_iff`). Both rest on one fact about the
front of a buffer: `readFront` gives a record and a rest exactly if the buffer is the written record
followed by the rest.
-/

namespace SealedLogin.Record

/-! ### One record -/

theorem marshal_eq_ok_iff {r : Record} {b : Bytes} : marshal r = .ok b ↔
    r.value.length < sizeLimit ∧ b = Bytes.ofNatBE 4 r.value.length ++ r.value := by
  rw [marshal]
  split
  · next h => simp [h, eq_comm]
  · next h => simp [h]

theorem length_marshal {r : Record} {b : Bytes} (h : marshal r = .ok b) :
    b.length = r.encodedLength := by
  obtain ⟨-, rfl⟩ := marshal_eq_ok_iff.1 h
  simp [encodedLength]

theorem exists_cons_four {b : Bytes} (h : b.length = 4) : ∃ w x y z, b = [w, x, y, z] := by
  match b, h with
  | [w, x, y, z], _ => exact ⟨w, x, y, z, rfl⟩

/-- A written record in front of a buffer is read off it. -/
theorem readFront_append {r : Record} {b : Bytes} (h : marshal r = .ok b) (rest : Bytes) :
    readFront (b ++ rest) = (.ok r, rest) := by
  obtain ⟨hlt, rfl⟩ := marshal_eq_ok_iff.1 h
  have hn : Bytes.toNatBE (Bytes.ofNatBE 4 r.value.length) = r.value.length :=
    Bytes.toNatBE_ofNatBE 4 r.value.length hlt
  obtain ⟨w, x, y, z, hb⟩ := exists_cons_four (Bytes.length_ofNatBE 4 r.value.length)
  rw [hb] at hn
  simp [hb, readFront, hn]

/-- A record that was read off a buffer stood in front of it as it is written. -/
theorem eq_append_of_readFront {r : Record} {b rest : Bytes} (h : readFront b = (.ok r, rest)) :
    ∃ w, marshal r = .ok w ∧ b = w ++ rest := by
  unfold readFront at h
  split at h
  · next w x y z tail =>
    simp only [List.splitAt_eq] at h
    split at h
    · cases h
    · next hlen =>
      cases h
      have hlt : Bytes.toNatBE [w, x, y, z] < sizeLimit :=
        Nat.lt_of_lt_of_eq (Bytes.toNatLE_lt [w, x, y, z].reverse)
          (show Nat.pow 256 4 = sizeLimit by decide)
      have hv : (tail.take (Bytes.toNatBE [w, x, y, z])).length = Bytes.toNatBE [w, x, y, z] := by
        rw [List.length_take] at hlen ⊢
        omega
      refine ⟨[w, x, y, z] ++ tail.take (Bytes.toNatBE [w, x, y, z]), ?_, ?_⟩
      · rw [marshal_eq_ok_iff, hv]
        refine ⟨hlt, ?_⟩
        rw [show (4 : Nat) = [w, x, y, z].length from rfl, Bytes.ofNatBE_toNatBE]
      · simp
  · cases h

/-- A buffer is read as one record exactly if it is that record as it is written. -/
theorem unmarshal_eq_ok_iff {r : Record} {b : Bytes} : unmarshal b = .ok r ↔ marshal r = .ok b := by
  constructor
  · intro h
    unfold unmarshal at h
    split at h
    · cases h
    · next hr =>
      cases h
      obtain ⟨w, hw, rfl⟩ := eq_append_of_readFront hr
      rwa [List.append_nil]
    · cases h
  · intro h
    have := readFront_append h []
    rw [List.append_nil] at this
    rw [unmarshal, this]

theorem marshal_injective {r s : Record} {b : Bytes} (hr : marshal r = .ok b)
    (hs : marshal s = .ok b) : r = s := by
  rw [← unmarshal_eq_ok_iff] at hr hs
  rw [hr] at hs
  cases hs
  rfl

/-! ### Many records -/

theorem marshalAll_cons_eq_ok_iff {r : Record} {rs : List Record} {b : Bytes} :
    marshalAll (r :: rs) = .ok b ↔
      ∃ w v, marshal r = .ok w ∧ marshalAll rs = .ok v ∧ b = w ++ v := by
  rw [marshalAll]
  cases marshal r with
  | error o => simp
  | ok w =>
    cases marshalAll rs with
    | error o => simp
    | ok v => simp [eq_comm]

theorem marshal_ne_ok_nil (r : Record) : marshal r ≠ .ok [] := by
  intro h
  have := length_marshal h
  rw [List.length_nil, encodedLength] at this
  omega

/-- Bytes that are not empty are written by a first record and others. -/
theorem exists_of_marshalAll {rs : List Record} {b : Bytes} (hb : b ≠ [])
    (h : marshalAll rs = .ok b) : ∃ r w v tail, rs = r :: tail ∧ marshal r = .ok w
      ∧ marshalAll tail = .ok v ∧ b = w ++ v := by
  cases rs with
  | nil =>
    cases h
    exact absurd rfl hb
  | cons r tail =>
    obtain ⟨w, v, hw, hv, rfl⟩ := marshalAll_cons_eq_ok_iff.1 h
    exact ⟨r, w, v, tail, rfl, hw, hv, rfl⟩

/-- A buffer is read to its end as records exactly if it is these records as they are written. -/
theorem expandFrom_eq_ok_iff {acc out : List Record} {b : Bytes} :
    expandFrom acc b = .ok out ↔ ∃ rs, out = acc.reverse ++ rs ∧ marshalAll rs = .ok b := by
  fun_induction expandFrom acc b with
  | case1 acc =>
    constructor
    · intro h
      cases h
      exact ⟨[], by simp, rfl⟩
    · rintro ⟨rs, rfl, hrs⟩
      cases rs with
      | nil => simp
      | cons r rs =>
        obtain ⟨w, v, hw, -, hnil⟩ := marshalAll_cons_eq_ok_iff.1 hrs
        rw [(List.append_eq_nil_iff.1 hnil.symm).1] at hw
        exact absurd hw (marshal_ne_ok_nil r)
  | case2 acc b hb f rest hf =>
    refine iff_of_false (by simp) ?_
    rintro ⟨rs, -, hrs⟩
    obtain ⟨r, w, v, tail, -, hw, -, rfl⟩ := exists_of_marshalAll hb hrs
    rw [readFront_append hw] at hf
    cases hf
  | case3 acc b hb r rest hr ih =>
    rw [ih]
    obtain ⟨w, hw, rfl⟩ := eq_append_of_readFront hr
    constructor
    · rintro ⟨rs, rfl, hrs⟩
      refine ⟨r :: rs, by simp, ?_⟩
      exact marshalAll_cons_eq_ok_iff.2 ⟨w, rest, hw, hrs, rfl⟩
    · rintro ⟨rs, rfl, hrs⟩
      obtain ⟨s, w', v, tail, rfl, hw', hv, heq⟩ := exists_of_marshalAll hb hrs
      have hfront := readFront_append hw' v
      rw [← heq, hr] at hfront
      cases hfront
      exact ⟨tail, by simp, hv⟩

/-- A record carries some records exactly if it is their combination. -/
theorem expand_eq_ok_iff {r : Record} {rs : List Record} :
    r.expand = .ok rs ↔ combine rs = .ok r := by
  rw [expand, expandFrom_eq_ok_iff, combine]
  constructor
  · rintro ⟨_, rfl, h⟩
    rw [h]
    rfl
  · intro h
    refine ⟨rs, rfl, ?_⟩
    cases hb : marshalAll rs with
    | error o =>
      rw [hb] at h
      cases h
    | ok b =>
      rw [hb] at h
      cases h
      rfl

/-! ### Records in a record on the wire -/

/-- A buffer holds one record that carries the given ones exactly if it is their combination as it
is written. -/
theorem combine_bind_marshal_eq_ok_iff {rs : List Record} {b : Bytes} :
    (combine rs).bind marshal = .ok b ↔ ∃ r, unmarshal b = .ok r ∧ r.expand = .ok rs := by
  constructor
  · intro h
    cases hr : combine rs with
    | error o =>
      rw [hr] at h
      cases h
    | ok r =>
      rw [hr] at h
      exact ⟨r, unmarshal_eq_ok_iff.2 h, expand_eq_ok_iff.2 hr⟩
  · rintro ⟨r, hb, hr⟩
    rw [expand_eq_ok_iff.1 hr]
    exact unmarshal_eq_ok_iff.1 hb

theorem combine_bind_marshal_injective {rs ss : List Record} {b : Bytes}
    (hr : (combine rs).bind marshal = .ok b) (hs : (combine ss).bind marshal = .ok b) :
    rs = ss := by
  obtain ⟨r, hb, hr⟩ := combine_bind_marshal_eq_ok_iff.1 hr
  obtain ⟨s, hb', hs⟩ := combine_bind_marshal_eq_ok_iff.1 hs
  rw [hb] at hb'
  cases hb'
  rw [hr] at hs
  cases hs
  rfl

/-! ### Sizes -/

/-- The number of bytes of some records on the wire. -/
def encodedLengths : List Record → Nat
  | [] => 0
  | r :: rs => r.encodedLength + encodedLengths rs

theorem marshalAll_of_encodedLengths {rs : List Record} (h : encodedLengths rs < sizeLimit) :
    ∃ b, marshalAll rs = .ok b ∧ b.length = encodedLengths rs := by
  induction rs with
  | nil => exact ⟨[], rfl, rfl⟩
  | cons r rs ih =>
    simp only [encodedLengths, encodedLength] at h ih
    obtain ⟨v, hv, hlength⟩ := ih (by omega)
    have hw : marshal r = .ok (Bytes.ofNatBE 4 r.value.length ++ r.value) :=
      marshal_eq_ok_iff.2 ⟨by omega, rfl⟩
    refine ⟨_, marshalAll_cons_eq_ok_iff.2 ⟨_, v, hw, hv, rfl⟩, ?_⟩
    simp only [List.length_append, Bytes.length_ofNatBE, hlength, encodedLengths, encodedLength]

/-- Records that are together shorter than the limit have a combination that can be written. -/
theorem combine_bind_marshal_of_encodedLengths {rs : List Record}
    (h : encodedLengths rs < sizeLimit) :
    ∃ b, (combine rs).bind marshal = .ok b ∧ b.length = 4 + encodedLengths rs := by
  obtain ⟨v, hv, hlength⟩ := marshalAll_of_encodedLengths h
  have hw : marshal ⟨v⟩ = .ok (Bytes.ofNatBE 4 v.length ++ v) :=
    marshal_eq_ok_iff.2 ⟨by rw [hlength]; exact h, rfl⟩
  refine ⟨Bytes.ofNatBE 4 v.length ++ v, ?_, ?_⟩
  · rw [combine, hv]
    exact hw
  · rw [List.length_append, Bytes.length_ofNatBE, hlength]

end SealedLogin.Record
