import SealedLogin.Proofs.Coding.Canonical

/-!
# Reading a buffer record by record

A buffer that is not empty is the records read off it, as they are written, then what the last read
took without giving a record, then what is left (`exists_parts`, `Halts`). No more complete records
stand in front of the buffer than those that were read (`isPrefix_records`), and every read but the
last takes four bytes at least (`length_left_le`).
-/

namespace SealedLogin.Record

variable {b : Bytes} {rs : List Record}

/-- How reading a buffer record by record ends: the fault if there is one, the bytes that the last
read took without giving a record, and the bytes that are left. A length that is cut short stays in
the buffer, and one that announces too much is taken off it. -/
inductive Halts : Option Fault → Bytes → Bytes → Prop
  | exhausted : Halts none [] []
  | cutLength {left : Bytes} (hne : left ≠ []) (h : left.length < 4) :
      Halts (some (.truncatedLength left.length)) [] left
  | cutValue {declared : Nat} {left : Bytes} (hlt : declared < sizeLimit)
      (h : left.length < declared) :
      Halts (some (.truncatedValue declared left.length)) (Bytes.ofNatBE 4 declared) left

/-! ### One read -/

theorem exists_taken_of_readFront {fault : Fault} {left : Bytes} (hb : b ≠ [])
    (h : readFront b = (.error fault, left)) :
    ∃ taken, Halts (some fault) taken left ∧ b = taken ++ left := by
  unfold readFront at h
  split at h
  · next w x y z rest =>
    simp only [List.splitAt_eq] at h
    split at h
    · next hlen =>
      cases h
      have hlt : Bytes.toNatBE [w, x, y, z] < sizeLimit :=
        Nat.lt_of_lt_of_eq (Bytes.toNatLE_lt [w, x, y, z].reverse)
          (show Nat.pow 256 4 = sizeLimit by decide)
      have hwhole : left.take (Bytes.toNatBE [w, x, y, z]) = left := by
        rw [List.length_take] at hlen
        exact List.take_of_length_le (by omega)
      rw [hwhole] at hlen ⊢
      refine ⟨_, .cutValue hlt hlen, ?_⟩
      rw [show (4 : Nat) = [w, x, y, z].length from rfl, Bytes.ofNatBE_toNatBE]
      rfl
    · cases h
  · next hshort =>
    cases h
    refine ⟨[], .cutLength hb ?_, rfl⟩
    match b, hshort with
    | [], _ | [_], _ | [_, _], _ | [_, _, _], _ => simp
    | w :: x :: y :: z :: rest, hshort => exact absurd rfl (hshort w x y z rest)

theorem marshalAll_singleton {r : Record} {w : Bytes} (h : marshal r = .ok w) :
    marshalAll [r] = .ok w :=
  marshalAll_cons_eq_ok_iff.2 ⟨w, [], h, rfl, (List.append_nil w).symm⟩

/-! ### All reads -/

theorem exists_parts (hb : b ≠ []) : ∃ written taken left,
    marshalAll (readStream b).records = .ok written
      ∧ Halts (readStream b).fault taken left
      ∧ (readStream b).left.getLast? = some left
      ∧ b = written ++ taken ++ left := by
  fun_induction readStream b with
  | case1 b fault left h =>
    obtain ⟨taken, htaken, heq⟩ := exists_taken_of_readFront hb h
    exact ⟨[], taken, left, rfl, htaken, rfl, heq⟩
  | case2 b r h =>
    obtain ⟨w, hw, rfl⟩ := eq_append_of_readFront h
    exact ⟨w, [], [], marshalAll_singleton hw, .exhausted, rfl, by simp⟩
  | case3 b r rest h hrest more ih =>
    obtain ⟨w, hw, rfl⟩ := eq_append_of_readFront h
    obtain ⟨written, taken, left, hwritten, hhalts, hleft, heq⟩ := ih hrest
    refine ⟨w ++ written, taken, left, ?_, hhalts, ?_, ?_⟩
    · exact marshalAll_cons_eq_ok_iff.2 ⟨w, written, hw, hwritten, rfl⟩
    · rw [List.getLast?_cons, hleft, Option.getD_some]
    · rw [List.append_assoc, List.append_assoc, ← List.append_assoc written, ← heq]

/-- The first of some records in front of the buffer is read off it. -/
theorem readFront_of_isPrefix {r : Record} {w : Bytes} (hw : marshalAll (r :: rs) = .ok w)
    (h : w <+: b) : ∃ v rest, marshalAll rs = .ok v ∧ v <+: rest ∧ readFront b = (.ok r, rest) := by
  obtain ⟨first, v, hfirst, hv, rfl⟩ := marshalAll_cons_eq_ok_iff.1 hw
  obtain ⟨behind, rfl⟩ := h
  refine ⟨v, v ++ behind, hv, List.prefix_append _ _, ?_⟩
  rw [List.append_assoc, readFront_append hfirst]

theorem eq_nil_of_marshalAll (h : marshalAll rs = .ok []) : rs = [] := by
  cases rs with
  | nil => rfl
  | cons r rs =>
    obtain ⟨w, v, hw, -, hnil⟩ := marshalAll_cons_eq_ok_iff.1 h
    rw [(List.append_eq_nil_iff.1 hnil.symm).1] at hw
    exact absurd hw (marshal_ne_ok_nil r)

theorem readStream_of_readFront {r : Record} {rest : Bytes} (h : readFront b = (.ok r, rest)) :
    readStream b = if rest = [] then ⟨[r], none, [rest]⟩
      else ⟨r :: (readStream rest).records, (readStream rest).fault,
        rest :: (readStream rest).left⟩ := by
  rw [readStream]
  split
  · next h' =>
    rw [h] at h'
    cases h'
  · next h' =>
    rw [h] at h'
    cases h'
    rfl

theorem readStream_of_readFront_eq_error {fault : Fault} {rest : Bytes}
    (h : readFront b = (.error fault, rest)) : readStream b = ⟨[], some fault, [rest]⟩ := by
  rw [readStream]
  split
  · next h' =>
    rw [h] at h'
    cases h'
    rfl
  · next h' =>
    rw [h] at h'
    cases h'

/-- Records that stand in front of the buffer are the first of those that are read. -/
theorem isPrefix_records {w : Bytes} (hw : marshalAll rs = .ok w) (h : w <+: b) :
    rs <+: (readStream b).records := by
  induction rs generalizing b w with
  | nil => exact List.nil_prefix
  | cons r rs ih =>
    obtain ⟨v, rest, hv, hprefix, hread⟩ := readFront_of_isPrefix hw h
    rw [readStream_of_readFront hread]
    by_cases hrest : rest = []
    · rw [if_pos hrest]
      rw [hrest] at hprefix
      rw [List.prefix_nil.1 hprefix] at hv
      obtain rfl := eq_nil_of_marshalAll hv
      exact List.prefix_refl [r]
    · rw [if_neg hrest]
      exact List.cons_prefix_cons.2 ⟨rfl, ih hv hprefix⟩

theorem exists_of_marshalAll_append {ss : List Record} {w : Bytes}
    (h : marshalAll (rs ++ ss) = .ok w) :
    ∃ u v, marshalAll rs = .ok u ∧ marshalAll ss = .ok v ∧ w = u ++ v := by
  induction rs generalizing w with
  | nil => exact ⟨[], w, rfl, h, rfl⟩
  | cons r rs ih =>
    obtain ⟨first, rest, hfirst, hrest, rfl⟩ := marshalAll_cons_eq_ok_iff.1 h
    obtain ⟨u, v, hu, hv, rfl⟩ := ih hrest
    exact ⟨first ++ u, v, marshalAll_cons_eq_ok_iff.2 ⟨first, u, hfirst, hu, rfl⟩, hv,
      (List.append_assoc first u v).symm⟩

/-- The records that are read are the longest sequence of complete records in front of the
buffer. -/
theorem isPrefix_records_iff (hb : b ≠ []) :
    rs <+: (readStream b).records ↔ ∃ w, marshalAll rs = .ok w ∧ w <+: b := by
  constructor
  · rintro ⟨more, hmore⟩
    obtain ⟨written, taken, left, hwritten, -, -, heq⟩ := exists_parts hb
    rw [← hmore] at hwritten
    obtain ⟨w, v, hw, -, rfl⟩ := exists_of_marshalAll_append hwritten
    refine ⟨w, hw, v ++ (taken ++ left), ?_⟩
    rw [heq, List.append_assoc, List.append_assoc]
  · rintro ⟨w, hw, h⟩
    exact isPrefix_records hw h

/-! ### The number of reads -/

theorem length_left (b : Bytes) : (readStream b).left.length =
    (readStream b).records.length + (readStream b).fault.toList.length := by
  fun_induction readStream b with
  | case1 => rfl
  | case2 => rfl
  | case3 b r rest hread hrest more ih =>
    show (readStream rest).left.length + 1 =
      (readStream rest).records.length + 1 + (readStream rest).fault.toList.length
    omega

theorem four_mul_length_le {w : Bytes} (h : marshalAll rs = .ok w) : 4 * rs.length ≤ w.length := by
  induction rs generalizing w with
  | nil => simp
  | cons r rs ih =>
    obtain ⟨first, rest, hfirst, hrest, rfl⟩ := marshalAll_cons_eq_ok_iff.1 h
    have hlength := length_marshal hfirst
    have := ih hrest
    simp only [encodedLength] at hlength
    simp only [List.length_cons, List.length_append]
    omega

theorem length_left_le (hb : b ≠ []) : (readStream b).left.length ≤ b.length / 4 + 1 := by
  obtain ⟨written, taken, left, hwritten, -, -, heq⟩ := exists_parts hb
  have hrecords := four_mul_length_le hwritten
  have hfault : (readStream b).fault.toList.length ≤ 1 := by
    cases (readStream b).fault <;> simp
  have hlength := congrArg List.length heq
  simp only [List.length_append] at hlength
  rw [length_left]
  omega

/-- Behind each record that was read stands what was left then. -/
theorem exists_left (b : Bytes) : ∀ k < (readStream b).records.length, ∃ w rest,
    marshalAll ((readStream b).records.take (k + 1)) = .ok w
      ∧ (readStream b).left[k]? = some rest ∧ b = w ++ rest := by
  fun_induction readStream b with
  | case1 => exact fun k hk => absurd hk (Nat.not_lt_zero k)
  | case2 b r hread =>
    intro k hk
    obtain rfl : k = 0 := Nat.lt_one_iff.1 hk
    obtain ⟨w, hw, rfl⟩ := eq_append_of_readFront hread
    exact ⟨w, [], marshalAll_singleton hw, rfl, rfl⟩
  | case3 b r rest hread hrest more ih =>
    intro k hk
    obtain ⟨w, hw, rfl⟩ := eq_append_of_readFront hread
    cases k with
    | zero => exact ⟨w, rest, marshalAll_singleton hw, rfl, rfl⟩
    | succ k =>
      obtain ⟨v, behind, hv, hleft, rfl⟩ := ih k (Nat.lt_of_succ_lt_succ hk)
      exact ⟨w ++ v, behind, marshalAll_cons_eq_ok_iff.2 ⟨w, v, hw, hv, rfl⟩, hleft,
        (List.append_assoc w v behind).symm⟩

/-! ### Reading to the end -/

theorem Halts.fault_eq_none_iff {fault : Option Fault} {taken left : Bytes}
    (h : Halts fault taken left) : fault = none ↔ taken ++ left = [] := by
  cases h with
  | exhausted => simp
  | cutLength hne _ => simp [hne]
  | cutValue _ _ =>
    refine iff_of_false nofun fun h => ?_
    have hlength := congrArg List.length h
    rw [List.length_append, Bytes.length_ofNatBE, List.length_nil] at hlength
    omega

/-- Reading record by record comes to the end of the buffer exactly if the buffer is split into
records, and then into the same ones. -/
theorem expand_eq_ok_iff_readStream (hb : b ≠ []) :
    expand ⟨b⟩ = .ok rs ↔ (readStream b).fault = none ∧ rs = (readStream b).records := by
  rw [expand_eq_ok_iff, combine_eq_ok_iff, ← marshalAll_eq_ok_iff]
  obtain ⟨written, taken, left, hwritten, hhalts, -, heq⟩ := exists_parts hb
  rw [hhalts.fault_eq_none_iff]
  constructor
  · intro h
    obtain ⟨more, hmore⟩ := isPrefix_records h (List.prefix_refl b)
    rw [← hmore] at hwritten
    obtain ⟨u, v, hu, hv, rfl⟩ := exists_of_marshalAll_append hwritten
    rw [h] at hu
    cases hu
    have hnil : v ++ (taken ++ left) = [] := by
      rwa [List.append_assoc, List.append_assoc, List.self_eq_append_right] at heq
    obtain ⟨rfl, hend⟩ := List.append_eq_nil_iff.1 hnil
    rw [← hmore, eq_nil_of_marshalAll hv, List.append_nil]
    exact ⟨hend, rfl⟩
  · rintro ⟨hend, rfl⟩
    rw [hwritten, heq, List.append_assoc, hend, List.append_nil]

/-! ### Nothing is lost -/

/-- Reading record by record ends after a quarter as many reads as the buffer has bytes, and one
more, at the most. The records that are read are the longest sequence of complete records in front
of the buffer; after each of them the reader stands right behind it. They, what the last read took
without giving a record, and what is left are the buffer. The reading ends without a fault exactly
if the buffer is split into records, and then these are the records. -/
theorem stream_faithful (hb : b ≠ []) :
    (readStream b).left.length
        = (readStream b).records.length + (readStream b).fault.toList.length
    ∧ (readStream b).left.length ≤ b.length / 4 + 1
    ∧ (∀ rs, rs <+: (readStream b).records ↔ ∃ w, Concatenates rs w ∧ w <+: b)
    ∧ (∀ k < (readStream b).records.length, ∃ w rest,
      Concatenates ((readStream b).records.take (k + 1)) w
        ∧ (readStream b).left[k]? = some rest ∧ b = w ++ rest)
    ∧ (∃ written taken left, Concatenates (readStream b).records written
      ∧ Halts (readStream b).fault taken left
      ∧ (readStream b).left.getLast? = some left ∧ b = written ++ taken ++ left)
    ∧ ∀ rs, expand ⟨b⟩ = .ok rs ↔
      (readStream b).fault = none ∧ rs = (readStream b).records := by
  simp only [← marshalAll_eq_ok_iff]
  exact ⟨length_left b, length_left_le hb, fun _ => isPrefix_records_iff hb, exists_left b,
    exists_parts hb, fun _ => expand_eq_ok_iff_readStream hb⟩

/-- Behind a record of one byte, a length of nine is taken off the buffer before it turns out that
only one byte follows. -/
theorem stream_faithful_cut_value :
    ([0, 0, 0, 1, 7, 0, 0, 0, 9, 1] : Bytes) ≠ []
    ∧ readStream [0, 0, 0, 1, 7, 0, 0, 0, 9, 1]
      = ⟨[⟨[7]⟩], some (.truncatedValue 9 1), [[0, 0, 0, 9, 1], [1]]⟩
    ∧ (∀ rs, rs <+: [⟨[7]⟩] ↔ ∃ w, Concatenates rs w ∧ w <+: [0, 0, 0, 1, 7, 0, 0, 0, 9, 1])
    ∧ (∃ written taken, Concatenates [⟨[7]⟩] written
      ∧ Halts (some (.truncatedValue 9 1)) taken [1]
      ∧ [0, 0, 0, 1, 7, 0, 0, 0, 9, 1] = written ++ taken ++ [1])
    ∧ ∀ rs, expand ⟨[0, 0, 0, 1, 7, 0, 0, 0, 9, 1]⟩ ≠ .ok rs := by
  have hne : ([0, 0, 0, 1, 7, 0, 0, 0, 9, 1] : Bytes) ≠ [] := by decide
  have hfirst : readFront [0, 0, 0, 1, 7, 0, 0, 0, 9, 1] = (.ok ⟨[7]⟩, [0, 0, 0, 9, 1]) := rfl
  have hcut : readFront [0, 0, 0, 9, 1] = (.error (.truncatedValue 9 1), [1]) := rfl
  have hstream : readStream [0, 0, 0, 1, 7, 0, 0, 0, 9, 1]
      = ⟨[⟨[7]⟩], some (.truncatedValue 9 1), [[0, 0, 0, 9, 1], [1]]⟩ := by
    rw [readStream_of_readFront hfirst, if_neg (List.cons_ne_nil _ _),
      readStream_of_readFront_eq_error hcut]
  obtain ⟨-, -, hlongest, -, hparts, hexpand⟩ := stream_faithful hne
  rw [hstream] at hlongest hparts hexpand
  obtain ⟨written, taken, left, hwritten, hhalts, hleft, heq⟩ := hparts
  cases hleft
  refine ⟨hne, hstream, hlongest, ⟨written, taken, hwritten, hhalts, heq⟩, fun rs h => ?_⟩
  exact absurd ((hexpand rs).1 h).1 nofun

end SealedLogin.Record
