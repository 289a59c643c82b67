import SealedLogin.Proofs.Coding.Utf8
import SealedLogin.Proofs.Time.Calendar
import SealedLogin.Time.Stamp

/-!
# Stamps are read back

`read_print`: the stamp of an instant, if its year has four digits, is read back as that instant
with the fraction of its second cut off, leap seconds included. Every field of a stamp is a number
in a fixed number of digits, so the proof turns the printed text into a list of as many bytes as
`Stamp.read` takes apart.

`isFresh_iff`: between instants that are representable, freshness is the comparison of their
distance with the window; the longest window has no say in it.
-/

namespace SealedLogin

/-! ### Which instants there are -/

namespace Instant

/-- What an instant can be at all: one of the years from -262143 to 262142, with a leap second after
any second. -/
structure IsRepresentable (t : Instant) : Prop where
  first_le : -8334601228800 ≤ t.seconds
  le_last : t.seconds ≤ 8210266876799
  nanos_lt : t.nanos < 2 * Duration.nanosPerSecond

/-- A clock of UTC shows a leap second only after the last second of a minute. -/
structure IsUtc (t : Instant) : Prop extends IsRepresentable t where
  second_of_leap : t.isLeap = true → t.seconds % 60 = 59

/-- The year in UTC. -/
def year (t : Instant) : Int := (Date.ofDays (t.seconds / 86400)).year

/-- Whether the year is written with four digits and no sign. -/
def HasPlainYear (t : Instant) : Prop := 0 ≤ t.year ∧ t.year ≤ 9999

@[simp] theorem isLeap_wholeSecond (t : Instant) : t.wholeSecond.isLeap = t.isLeap := by
  cases h : t.isLeap <;> rw [wholeSecond, h] <;> rfl

theorem IsRepresentable.wholeSecond {t : Instant} (h : t.IsRepresentable) :
    t.wholeSecond.IsRepresentable := by
  refine ⟨h.first_le, h.le_last, ?_⟩
  show (if t.isLeap then Duration.nanosPerSecond else 0) < 2 * Duration.nanosPerSecond
  split <;> decide

/-- No representable year has more than six digits. -/
theorem IsRepresentable.natAbs_year_lt {t : Instant} (h : t.IsRepresentable) :
    t.year.natAbs < 10 ^ 6 := by
  have hfirst := h.first_le
  have hlast := h.le_last
  have hmarch := Date.daysBeforeMarch_marchYear (t.seconds / 86400 + Date.epoch)
  have hyear := Date.year_ofDays (t.seconds / 86400)
  rw [← Instant.year] at hyear
  simp only [Date.daysBeforeMarch, Date.epoch] at hmarch hyear
  omega

/-- No two representable instants are further apart than the longest window. -/
theorem natAbs_since_le {s t : Instant} (hs : s.IsRepresentable) (ht : t.IsRepresentable) :
    (t.since s).natAbs ≤ Duration.longestWindow := by
  have hs1 := hs.first_le
  have hs2 := hs.le_last
  have hs3 := hs.nanos_lt
  have ht1 := ht.first_le
  have ht2 := ht.le_last
  have ht3 := ht.nanos_lt
  have hw : Duration.longestWindow = 9223372036854775807000000 := rfl
  rw [hw]
  simp only [since, total, Duration.nanosPerSecond] at *
  split <;> split <;> omega

theorem isFresh_iff {stamped now : Instant} (hs : stamped.IsRepresentable)
    (hn : now.IsRepresentable) (window : Duration) :
    stamped.isFresh now window = true ↔ (now.since stamped).natAbs ≤ window := by
  have h := natAbs_since_le hs hn
  rw [isFresh, decide_eq_true_eq]
  omega

end Instant

/-! ### Digits -/

theorem Utf8.flatMap_of_ascii {cs : List Char} (h : ∀ c ∈ cs, c.toNat < 128) :
    cs.flatMap String.utf8EncodeChar = cs.map fun c => UInt8.ofNat c.toNat := by
  induction cs with
  | nil => rfl
  | cons c cs ih =>
    have hc : c.toNat ≤ 127 := Nat.le_of_lt_succ (h c List.mem_cons_self)
    rw [List.flatMap_cons, ih fun d hd => h d (List.mem_cons_of_mem c hd), encodeChar_eq_ite,
      if_pos hc]
    rfl

namespace Text

theorem length_paddedDigits {w n : Nat} (hw : 0 < w) (h : n < 10 ^ w) :
    (paddedDigits w n).length = w := by
  have hle := (Nat.length_toDigits_le_iff (by decide) hw).2 h
  rw [paddedDigits, List.length_append, List.length_replicate]
  omega

theorem length_paddedDigits_le {w m n : Nat} (hm : 0 < m) (h : n < 10 ^ m) :
    (paddedDigits w n).length ≤ max w m := by
  have hle := (Nat.length_toDigits_le_iff (by decide) hm).2 h
  rw [paddedDigits, List.length_append, List.length_replicate]
  omega

theorem isDigit_of_mem_paddedDigits {w n : Nat} {c : Char} (h : c ∈ paddedDigits w n) :
    c.isDigit = true := by
  rw [paddedDigits, List.mem_append] at h
  rcases h with h | h
  · rw [List.eq_of_mem_replicate h]
    rfl
  · exact Nat.isDigit_of_mem_toDigits (by decide) (by decide) h

theorem toNat_of_isDigit {c : Char} (h : c.isDigit = true) : 48 ≤ c.toNat ∧ c.toNat ≤ 57 := by
  simp only [Char.isDigit, Bool.and_eq_true, decide_eq_true_eq, UInt32.le_iff_toNat_le] at h
  exact h

theorem isDigitByte_of_isDigit {c : Char} (h : c.isDigit = true) :
    isDigitByte (UInt8.ofNat c.toNat) = true := by
  have hd := toNat_of_isDigit h
  simp only [isDigitByte, Bool.and_eq_true, decide_eq_true_eq, UInt8.le_iff_toNat_le,
    UInt8.toNat_ofNat', UInt8.reduceToNat]
  omega

theorem digitsValue_eq_ofDigitChars {cs : List Char} (h : ∀ c ∈ cs, c.isDigit = true) :
    digitsValue (cs.map fun c => UInt8.ofNat c.toNat) = Nat.ofDigitChars 10 cs 0 := by
  rw [digitsValue, Nat.ofDigitChars_eq_foldl]
  generalize (0 : Nat) = n
  induction cs generalizing n with
  | nil => rfl
  | cons c cs ih =>
    have hd := toNat_of_isDigit (h c List.mem_cons_self)
    have hstep : n * 10 + ((UInt8.ofNat c.toNat).toNat - 48) = 10 * n + (c.toNat - '0'.toNat) := by
      rw [UInt8.toNat_ofNat', Nat.mod_eq_of_lt (by omega), Nat.mul_comm]
      rfl
    rw [List.map_cons, List.foldl_cons, List.foldl_cons, hstep]
    exact ih (fun d hd => h d (List.mem_cons_of_mem c hd)) _

theorem readNat?_of_isDigit {cs : List Char} (h : ∀ c ∈ cs, c.isDigit = true) :
    readNat? (cs.map fun c => UInt8.ofNat c.toNat) = some (Nat.ofDigitChars 10 cs 0) := by
  have hall : (cs.map fun c => UInt8.ofNat c.toNat).all isDigitByte = true := by
    rw [List.all_map, List.all_eq_true]
    intro c hc
    exact isDigitByte_of_isDigit (h c hc)
  rw [readNat?, if_pos hall, digitsValue_eq_ofDigitChars h]

theorem ofDigitChars_paddedDigits (w n : Nat) : Nat.ofDigitChars 10 (paddedDigits w n) 0 = n := by
  rw [paddedDigits, Nat.ofDigitChars_append, Nat.ofDigitChars_replicate_zero, Nat.mul_zero,
    Nat.ofDigitChars_ten_toDigits]

end Text

namespace Stamp

/-- A number in the given number of digits, as bytes. -/
def digitBytes (w n : Nat) : Bytes := (Text.paddedDigits w n).flatMap String.utf8EncodeChar

theorem digitBytes_eq_map (w n : Nat) :
    digitBytes w n = (Text.paddedDigits w n).map fun c => UInt8.ofNat c.toNat := by
  refine Utf8.flatMap_of_ascii fun c hc => ?_
  have h := Text.toNat_of_isDigit (Text.isDigit_of_mem_paddedDigits hc)
  omega

theorem length_digitBytes {w n : Nat} (hw : 0 < w) (h : n < 10 ^ w) :
    (digitBytes w n).length = w := by
  rw [digitBytes_eq_map, List.length_map, Text.length_paddedDigits hw h]

theorem digits_digitBytes (w n : Nat) : digits (digitBytes w n) = .ok n := by
  rw [digits, digitBytes_eq_map,
    Text.readNat?_of_isDigit fun _ hc => Text.isDigit_of_mem_paddedDigits hc,
    Text.ofDigitChars_paddedDigits]

theorem exists_two_digits {n : Nat} (h : n < 100) :
    ∃ x y, digitBytes 2 n = [x, y] ∧ digits [x, y] = .ok n := by
  match hb : digitBytes 2 n, length_digitBytes (by decide) h with
  | [x, y], _ => exact ⟨x, y, rfl, hb ▸ digits_digitBytes 2 n⟩

theorem exists_four_digits {n : Nat} (h : n < 10000) :
    ∃ w x y z, digitBytes 4 n = [w, x, y, z] ∧ digits [w, x, y, z] = .ok n := by
  match hb : digitBytes 4 n, length_digitBytes (by decide) h with
  | [w, x, y, z], _ => exact ⟨w, x, y, z, rfl, hb ▸ digits_digitBytes 4 n⟩

/-! ### Stamps -/

theorem encode_print {t : Instant} (h : t.HasPlainYear) : Utf8.encode (print t) =
    digitBytes 4 t.year.toNat ++ 45 :: digitBytes 2 (Date.ofDays (t.seconds / 86400)).month
      ++ 45 :: digitBytes 2 (Date.ofDays (t.seconds / 86400)).day
      ++ 84 :: digitBytes 2 (t.secondOfDay.toNat / 3600)
      ++ 58 :: digitBytes 2 (t.secondOfDay.toNat / 60 % 60)
      ++ 58 :: digitBytes 2 (shownSecond t) ++ [90] := by
  have hyear : yearDigits (Date.ofDays (t.seconds / 86400)).year
      = Text.paddedDigits 4 t.year.toNat := if_pos h
  simp only [Utf8.encode, print, String.toList_ofList, dateTime, hyear, List.flatMap_append,
    List.flatMap_cons, digitBytes]
  rfl

/-- The second of a minute, and whether sixty stands for it. -/
theorem shownSecond_cases {t : Instant} (h : t.IsUtc) :
    (t.isLeap = true ∧ shownSecond t = 60 ∧ t.seconds % 60 = 59)
      ∨ (t.isLeap = false ∧ shownSecond t < 60 ∧ (shownSecond t : Int) = t.seconds % 60) := by
  rw [shownSecond]
  cases hleap : t.isLeap with
  | true =>
    have h59 := h.second_of_leap hleap
    refine .inl ⟨rfl, ?_, h59⟩
    rw [h59]
    rfl
  | false =>
    refine .inr ⟨rfl, ?_, ?_⟩ <;> simp only [Bool.false_eq_true, if_false] <;> omega

theorem shownSecond_le (t : Instant) : shownSecond t ≤ 60 := by
  unfold shownSecond
  split <;> omega

theorem hour_lt (t : Instant) : t.secondOfDay.toNat / 3600 < 24 := by
  rw [Instant.secondOfDay]
  omega

/-- The time of day in hours, minutes and seconds. -/
theorem seconds_eq (t : Instant) : t.seconds = t.seconds / 86400 * 86400
    + (t.secondOfDay.toNat / 3600 : Nat) * 3600 + (t.secondOfDay.toNat / 60 % 60 : Nat) * 60
    + t.seconds % 60 := by
  rw [Instant.secondOfDay]
  omega

/-- What a stamp with the given fields in UTC is read as. -/
theorem read_fields {y1 y2 y3 y4 m1 m2 d1 d2 h1 h2 i1 i2 s1 s2 : UInt8}
    {year month day hour minute second : Nat} (hy : digits [y1, y2, y3, y4] = .ok year)
    (hm : digits [m1, m2] = .ok month) (hd : digits [d1, d2] = .ok day)
    (hh : digits [h1, h2] = .ok hour) (hi : digits [i1, i2] = .ok minute)
    (hs : digits [s1, s2] = .ok second) (hvalid : (Date.mk year month day).isValid = true)
    (hhour : hour < 24) (hminute : minute < 60) (hsecond : second ≤ 60) :
    read [y1, y2, y3, y4, 45, m1, m2, 45, d1, d2, 84, h1, h2, 58, i1, i2, 58, s1, s2, 90] =
      .ok ⟨(Date.mk year month day).toDays * 86400 + hour * 3600 + minute * 60
          + (if second == 60 then 59 else second : Nat),
        if second == 60 then Duration.nanosPerSecond else 0⟩ := by
  have hfraction : readFraction [90] = .ok (0, [90]) := rfl
  have hoffset : readOffset [90] = .ok (0, []) := rfl
  simp only [read, hy, hm, hd, hh, hi, hs, hvalid, hfraction, hoffset, hhour, hminute, hsecond,
    demand, bind, Except.bind]
  simp

/-- The bytes of a stamp: numbers in as many digits as they are read in. -/
theorem encode_print_fields {t : Instant} (hy : t.HasPlainYear) :
    ∃ y1 y2 y3 y4 m1 m2 d1 d2 h1 h2 i1 i2 s1 s2, Utf8.encode (print t)
        = [y1, y2, y3, y4, 45, m1, m2, 45, d1, d2, 84, h1, h2, 58, i1, i2, 58, s1, s2, 90]
      ∧ digits [y1, y2, y3, y4] = .ok t.year.toNat
      ∧ digits [m1, m2] = .ok (Date.ofDays (t.seconds / 86400)).month
      ∧ digits [d1, d2] = .ok (Date.ofDays (t.seconds / 86400)).day
      ∧ digits [h1, h2] = .ok (t.secondOfDay.toNat / 3600)
      ∧ digits [i1, i2] = .ok (t.secondOfDay.toNat / 60 % 60)
      ∧ digits [s1, s2] = .ok (shownSecond t) := by
  have hyear : t.year.toNat < 10000 := by
    have := hy.2
    omega
  have hmonth := Date.month_ofDays_le (t.seconds / 86400)
  have hday := Date.day_le_of_isValid (Date.isValid_ofDays (t.seconds / 86400))
  have hhour := hour_lt t
  have hshown := shownSecond_le t
  obtain ⟨y1, y2, y3, y4, hy1, hy2⟩ := exists_four_digits hyear
  obtain ⟨m1, m2, hm1, hm2⟩ := exists_two_digits (Nat.lt_of_le_of_lt hmonth (by decide))
  obtain ⟨d1, d2, hd1, hd2⟩ := exists_two_digits (Nat.lt_of_le_of_lt hday (by decide))
  obtain ⟨h1, h2, hh1, hh2⟩ := exists_two_digits (Nat.lt_trans hhour (by decide))
  obtain ⟨i1, i2, hi1, hi2⟩ := exists_two_digits (n := t.secondOfDay.toNat / 60 % 60) (by omega)
  obtain ⟨s1, s2, hs1, hs2⟩ := exists_two_digits (Nat.lt_of_le_of_lt hshown (by decide))
  refine ⟨y1, y2, y3, y4, m1, m2, d1, d2, h1, h2, i1, i2, s1, s2, ?_, hy2, hm2, hd2, hh2, hi2, hs2⟩
  rw [encode_print hy, hy1, hm1, hd1, hh1, hi1, hs1]
  rfl

theorem length_encode_print {t : Instant} (hy : t.HasPlainYear) :
    (Utf8.encode (print t)).length = 20 := by
  obtain ⟨_, _, _, _, _, _, _, _, _, _, _, _, _, _, heq, _⟩ := encode_print_fields hy
  rw [heq]
  rfl

theorem length_yearDigits_le {y : Int} (h : y.natAbs < 10 ^ 6) :
    (yearDigits y).length ≤ 7 := by
  unfold yearDigits
  split
  · have hle := @Text.length_paddedDigits_le 4 6 y.toNat (by decide) (by omega)
    omega
  · have hle := @Text.length_paddedDigits_le 4 6 y.natAbs (by decide) h
    rw [List.length_cons]
    omega

/-- A stamp is no longer than with a signed year of six digits. -/
theorem length_print_le {t : Instant} (h : t.IsRepresentable) : (print t).length ≤ 23 := by
  have htwo : ∀ {n : Nat}, n < 100 → (Text.paddedDigits 2 n).length = 2 :=
    fun hn => Text.length_paddedDigits (by decide) hn
  have hyear := length_yearDigits_le h.natAbs_year_lt
  have hmonth := Date.month_ofDays_le (t.seconds / 86400)
  have hday := Date.day_le_of_isValid (Date.isValid_ofDays (t.seconds / 86400))
  have hhour := hour_lt t
  have hshown := shownSecond_le t
  rw [print, String.length_ofList, dateTime]
  simp only [List.length_append, List.length_cons, List.length_nil]
  rw [htwo (by omega), htwo (by omega), htwo (by omega), htwo (by omega), htwo (by omega)]
  rw [Instant.year] at hyear
  omega

/-- A stamp is read back as the instant with the fraction of its second cut off. -/
theorem read_print {t : Instant} (h : t.IsUtc) (hy : t.HasPlainYear) :
    read (Utf8.encode (print t)) = .ok t.wholeSecond := by
  obtain ⟨y1, y2, y3, y4, m1, m2, d1, d2, h1, h2, i1, i2, s1, s2, heq, hyear, hmonth, hday, hhour,
    hminute, hsecond⟩ := encode_print_fields hy
  have hdate : Date.mk t.year.toNat (Date.ofDays (t.seconds / 86400)).month
      (Date.ofDays (t.seconds / 86400)).day = Date.ofDays (t.seconds / 86400) := by
    rw [Int.toNat_of_nonneg hy.1]
    rfl
  have hvalid := Date.isValid_ofDays (t.seconds / 86400)
  have hback := Date.toDays_ofDays (t.seconds / 86400)
  have hseconds := seconds_eq t
  rw [heq, read_fields hyear hmonth hday hhour hminute hsecond (hdate ▸ hvalid) (hour_lt t)
    (Nat.mod_lt _ (by decide)) (shownSecond_le t), hdate, hback, Instant.wholeSecond]
  rcases shownSecond_cases h with ⟨hleap, hsixty, h59⟩ | ⟨hleap, hlt, hshown⟩
  · rw [hleap, hsixty]
    refine congrArg (fun s => Except.ok (Instant.mk s _)) ?_
    rw [if_pos (by decide)]
    omega
  · have hne : (shownSecond t == 60) = false := by
      rw [beq_eq_false_iff_ne]
      omega
    rw [hleap, hne]
    refine congrArg (fun s => Except.ok (Instant.mk s _)) ?_
    rw [if_neg Bool.false_ne_true]
    omega

end Stamp

end SealedLogin
