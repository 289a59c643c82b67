import SealedLogin.Proofs.Computations
import SealedLogin.Proofs.Time.Stamps

/-!
# What a stamp can say

A stamp that is read, with whatever offset, fraction or leap second, holds the fields of an instant
that a clock of UTC can show (`exists_fields_of_read`, `isUtc_of_read`): its year has four digits,
its offset is one of whole minutes, and second sixty stands for the leap second after second
fifty-nine, which no offset of whole minutes moves away from the end of its minute.

An instant whose year is written with a sign has a stamp that is not read back
(`exists_error_of_not_hasPlainYear`). Which instants these are, `hasPlainYear_iff` says in seconds.
-/

namespace SealedLogin

/-! ### Digits -/

namespace Text

theorem foldl_digits_lt {ds : Bytes} (h : ∀ d ∈ ds, isDigitByte d = true) (n : Nat) :
    ds.foldl (fun n d => n * 10 + (d.toNat - 48)) n < (n + 1) * 10 ^ ds.length := by
  induction ds generalizing n with
  | nil => simp
  | cons d ds ih =>
    have hd := h d (by simp)
    simp only [isDigitByte, Bool.and_eq_true, decide_eq_true_eq, UInt8.le_iff_toNat_le,
      UInt8.reduceToNat] at hd
    calc ds.foldl (fun n d => n * 10 + (d.toNat - 48)) (n * 10 + (d.toNat - 48))
        < (n * 10 + (d.toNat - 48) + 1) * 10 ^ ds.length :=
          ih (fun e he => h e (by simp [he])) _
      _ ≤ (n + 1) * 10 * 10 ^ ds.length := Nat.mul_le_mul_right _ (by omega)
      _ = (n + 1) * 10 ^ (d :: ds).length := by
          rw [List.length_cons, Nat.pow_succ, Nat.mul_assoc, Nat.mul_comm 10]

theorem digitsValue_lt {ds : Bytes} (h : ∀ d ∈ ds, isDigitByte d = true) :
    digitsValue ds < 10 ^ ds.length := by
  have hlt := foldl_digits_lt h 0
  simpa [digitsValue] using hlt

end Text

/-! ### Dates -/

namespace Date

theorem month_le_of_isValid {d : Date} (h : d.isValid = true) : d.month ≤ 12 := by
  simp only [isValid, Bool.and_eq_true, decide_eq_true_eq] at h
  unfold daysInMonth at h
  split at h
  all_goals omega

theorem daysBeforeMarch_mono {y y' : Int} (h : y ≤ y') :
    daysBeforeMarch y ≤ daysBeforeMarch y' := by
  simp only [daysBeforeMarch]
  omega

/-- A day lies in a year or after it exactly if it is not before the first day of the year. -/
theorem le_marchYear_iff {y n : Int} : y ≤ marchYear n ↔ daysBeforeMarch y ≤ n := by
  have h := daysBeforeMarch_marchYear n
  constructor
  · intro hy
    exact Int.le_trans (daysBeforeMarch_mono hy) h.1
  · intro hy
    by_cases hlt : marchYear n + 1 ≤ y
    · have hmono := daysBeforeMarch_mono hlt
      omega
    · omega

/-- The days of four thousand centuries, and more, lie between the dates of years of four digits. -/
theorem natAbs_toDays_lt {d : Date} (h : d.isValid = true) (hyear : 0 ≤ d.year)
    (hyear' : d.year < 10000) : d.toDays.natAbs < 4000000 := by
  have hmonth := month_le_of_isValid h
  have hday := day_le_of_isValid h
  unfold toDays
  split <;> simp only [daysBeforeMarch, daysBeforeMonth, epoch] <;> omega

end Date

namespace Stamp

/-! ### Fields -/

/-- What a stamp says: a date, a time of day, and how far the clock of both is ahead of UTC. -/
structure Fields where
  date : Date
  hour : Nat
  minute : Nat
  second : Nat
  nanos : Nat
  offset : Int
  year_nonneg : 0 ≤ date.year
  year_lt : date.year < 10000
  isValid : date.isValid = true
  hour_lt : hour < 24
  minute_lt : minute < 60
  second_le : second ≤ 60
  nanos_lt : nanos < Duration.nanosPerSecond
  natAbs_offset_lt : offset.natAbs < 86400
  dvd_offset : 60 ∣ offset

namespace Fields

/-- The instant that the fields name. -/
def instant (f : Fields) : Instant where
  seconds := f.date.toDays * 86400 + f.hour * 3600 + f.minute * 60
    + (if f.second == 60 then 59 else f.second : Nat) - f.offset
  nanos := f.nanos + if f.second == 60 then Duration.nanosPerSecond else 0

theorem isLeap_instant (f : Fields) : f.instant.isLeap = (f.second == 60) := by
  have hnanos := f.nanos_lt
  unfold Instant.isLeap instant
  by_cases h : f.second = 60
  · simp [h]
  · have hsecond : (f.second == 60) = false := beq_eq_false_iff_ne.2 h
    simp [hsecond]
    omega

/-- A clock of UTC can show every instant that fields name. -/
theorem isUtc_instant (f : Fields) : f.instant.IsUtc := by
  have hdays := Date.natAbs_toDays_lt f.isValid f.year_nonneg f.year_lt
  have hhour := f.hour_lt
  have hminute := f.minute_lt
  have hsecond := f.second_le
  have hnanos := f.nanos_lt
  have hoffset := f.natAbs_offset_lt
  have hdvd := f.dvd_offset
  refine ⟨⟨?_, ?_, ?_⟩, ?_⟩
  · simp only [instant]
    omega
  · simp only [instant]
    split <;> omega
  · simp only [instant]
    split <;> omega
  · intro hleap
    rw [isLeap_instant] at hleap
    simp only [instant, hleap, if_true]
    omega

end Fields

/-! ### Reading -/

theorem demand_eq_ok_iff {condition : Bool} {fault : Fault} {u : Unit} :
    demand condition fault = .ok u ↔ condition = true := by
  unfold demand
  split <;> simp_all

theorem digits_eq_ok {ds : Bytes} {n : Nat} (h : digits ds = .ok n) :
    (∀ d ∈ ds, Text.isDigitByte d = true) ∧ n < 10 ^ ds.length := by
  unfold digits Text.readNat? at h
  by_cases hall : ds.all Text.isDigitByte = true
  · rw [if_pos hall] at h
    cases h
    rw [List.all_eq_true] at hall
    exact ⟨hall, Text.digitsValue_lt hall⟩
  · rw [if_neg hall] at h
    cases h

theorem readFraction_lt {b rest : Bytes} {nanos : Nat} (h : readFraction b = .ok (nanos, rest)) :
    nanos < Duration.nanosPerSecond := by
  unfold readFraction at h
  split at h
  · split at h
    · cases h
    · next more d tail =>
      split at h
      · cases h
        generalize hds : ((d :: tail).takeWhile Text.isDigitByte).take 9 = ds
        have hlength : ds.length ≤ 9 := by
          rw [← hds, List.length_take]
          omega
        have hdigits : ∀ e ∈ ds, Text.isDigitByte e = true := fun e he =>
          List.all_eq_true.1 List.all_takeWhile e (List.mem_of_mem_take (hds ▸ he))
        calc Text.digitsValue ds * 10 ^ (9 - ds.length)
            < 10 ^ ds.length * 10 ^ (9 - ds.length) :=
              Nat.mul_lt_mul_of_pos_right (Text.digitsValue_lt hdigits) (Nat.pow_pos (by decide))
          _ = Duration.nanosPerSecond := by
              rw [← Nat.pow_add, Nat.add_sub_cancel' hlength]
              rfl
      · cases h
  · cases h
    decide

/-- An offset is one of whole minutes. -/
theorem dvd_readOffsetSize {b rest : Bytes} {size : Nat} (h : readOffsetSize b = .ok (size, rest)) :
    60 ∣ size := by
  unfold readOffsetSize at h
  split at h
  · obtain ⟨hours, -, h⟩ := bind_eq_ok_iff.1 h
    split at h
    · cases h
    · split at h
      · obtain ⟨-, -, h⟩ := bind_eq_ok_iff.1 h
        cases h
        omega
      · cases h
    · cases h
    · cases h
  · cases h

theorem dvd_readOffset {b rest : Bytes} {offset : Int} (h : readOffset b = .ok (offset, rest)) :
    60 ∣ offset := by
  unfold readOffset at h
  split at h
  · cases h
    exact Int.dvd_zero _
  · cases h
    exact Int.dvd_zero _
  · obtain ⟨⟨sign, b⟩, -, h⟩ := bind_eq_ok_iff.1 h
    obtain ⟨⟨size, b'⟩, hsize, h⟩ := bind_eq_ok_iff.1 h
    cases h
    exact Dvd.dvd.mul_left (Int.natCast_dvd_natCast.2 (dvd_readOffsetSize hsize)) sign

/-- A stamp that is read holds fields, and names their instant. -/
theorem exists_fields_of_read {b : Bytes} {t : Instant} (h : read b = .ok t) :
    ∃ f : Fields, t = f.instant := by
  unfold read at h
  split at h
  · obtain ⟨year, hyear, h⟩ := bind_eq_ok_iff.1 h
    obtain ⟨month, -, h⟩ := bind_eq_ok_iff.1 h
    obtain ⟨day, -, h⟩ := bind_eq_ok_iff.1 h
    obtain ⟨-, -, h⟩ := bind_eq_ok_iff.1 h
    obtain ⟨_, hvalid, h⟩ := bind_eq_ok_iff.1 h
    obtain ⟨-, -, h⟩ := bind_eq_ok_iff.1 h
    obtain ⟨hour, -, h⟩ := bind_eq_ok_iff.1 h
    obtain ⟨minute, -, h⟩ := bind_eq_ok_iff.1 h
    obtain ⟨second, -, h⟩ := bind_eq_ok_iff.1 h
    obtain ⟨-, -, h⟩ := bind_eq_ok_iff.1 h
    obtain ⟨⟨nanos, rest⟩, hnanos, h⟩ := bind_eq_ok_iff.1 h
    obtain ⟨_, htime, h⟩ := bind_eq_ok_iff.1 h
    obtain ⟨⟨offset, rest⟩, hoffset, h⟩ := bind_eq_ok_iff.1 h
    obtain ⟨-, -, h⟩ := bind_eq_ok_iff.1 h
    obtain ⟨_, hsize, h⟩ := bind_eq_ok_iff.1 h
    cases h
    rw [demand_eq_ok_iff] at hvalid htime hsize
    simp only [Bool.and_eq_true, decide_eq_true_eq] at htime hsize
    have hyear' : year < 10000 := by simpa using (digits_eq_ok hyear).2
    have hlt : (year : Int) < 10000 := by omega
    exact ⟨⟨⟨year, month, day⟩, hour, minute, second, nanos, offset, Int.natCast_nonneg year, hlt,
      hvalid, htime.1.1, htime.1.2, htime.2, readFraction_lt hnanos, hsize,
      dvd_readOffset hoffset⟩, rfl⟩
  · cases h

theorem isUtc_of_read {b : Bytes} {t : Instant} (h : read b = .ok t) : t.IsUtc := by
  obtain ⟨f, rfl⟩ := exists_fields_of_read h
  exact f.isUtc_instant

/-! ### Signed years -/

/-- No stamp begins with anything but a digit. -/
theorem exists_error_of_not_isDigitByte {c : UInt8} (hc : Text.isDigitByte c = false) (b : Bytes) :
    ∃ fault, read (c :: b) = .error fault := by
  unfold read
  split
  · next heq =>
    cases heq
    exact ⟨.invalid, by simp [digits, Text.readNat?, hc, bind, Except.bind]⟩
  · exact ⟨.tooShort, rfl⟩

/-- A year that is not written with four digits is written with a sign in front. -/
theorem yearDigits_of_not_plain {y : Int} (h : ¬(0 ≤ y ∧ y ≤ 9999)) :
    ∃ sign, (sign = '-' ∨ sign = '+') ∧ yearDigits y = sign :: Text.paddedDigits 4 y.natAbs := by
  unfold yearDigits
  rw [if_neg h]
  by_cases hneg : y < 0
  · exact ⟨'-', .inl rfl, by rw [if_pos hneg]⟩
  · exact ⟨'+', .inr rfl, by rw [if_neg hneg]⟩

/-- The stamp of an instant whose year has a sign is not read back. -/
theorem exists_error_of_not_hasPlainYear {t : Instant} (h : ¬t.HasPlainYear) :
    ∃ fault, read (Utf8.encode (print t)) = .error fault := by
  obtain ⟨sign, hsign, hyear⟩ := yearDigits_of_not_plain h
  obtain ⟨c, b, hc, hprint⟩ : ∃ c b, Text.isDigitByte c = false
      ∧ Utf8.encode (print t) = c :: b := by
    rw [Instant.year] at hyear
    rcases hsign with rfl | rfl
    · exact ⟨45, _, rfl, by simp [Utf8.encode, print, dateTime, hyear]; rfl⟩
    · exact ⟨43, _, rfl, by simp [Utf8.encode, print, dateTime, hyear]; rfl⟩
  rw [hprint]
  exact exists_error_of_not_isDigitByte hc b

end Stamp

namespace Instant

/-- The years of four digits, in seconds since the beginning of 1970. -/
theorem hasPlainYear_iff {t : Instant} :
    t.HasPlainYear ↔ -62167219200 ≤ t.seconds ∧ t.seconds ≤ 253402300799 := by
  unfold HasPlainYear Instant.year
  rw [Date.ofDays_eq]
  dsimp only
  have hepoch : Date.epoch = 719468 := rfl
  generalize hn : t.seconds / 86400 + Date.epoch = n
  have hday := Date.daysBeforeMarch_add_dayOfYear n
  have hfirst : 0 ≤ Date.marchYear n ↔ 0 ≤ n := Date.le_marchYear_iff
  have hbefore : -1 ≤ Date.marchYear n ↔ -366 ≤ n := Date.le_marchYear_iff
  have hlast : 9999 ≤ Date.marchYear n ↔ 3652059 ≤ n := Date.le_marchYear_iff
  have hafter : 10000 ≤ Date.marchYear n ↔ 3652425 ≤ n := Date.le_marchYear_iff
  -- January and February count to the year before, so that two years are cut in the middle
  have hcut : Date.marchYear n = -1 → Date.daysBeforeMarch (Date.marchYear n) = -366 :=
    fun h => by rw [h]; rfl
  have hcut' : Date.marchYear n = 9999 → Date.daysBeforeMarch (Date.marchYear n) = 3652059 :=
    fun h => by rw [h]; rfl
  have hmonth : Date.monthOfYear (Date.dayOfYear n) < 10 ↔ Date.dayOfYear n < 306 := by
    unfold Date.monthOfYear
    omega
  by_cases h : Date.monthOfYear (Date.dayOfYear n) < 10
  · simp only [if_pos h]
    omega
  · simp only [if_neg h]
    omega

end Instant

end SealedLogin
