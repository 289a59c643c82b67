import SealedLogin.Proofs.Envelope.Opening
import SealedLogin.Proofs.Time.Reading

/-!
# Time stamps of blocks

A block that is stamped with an instant gives that instant back, to the second, if its year is
written with four digits, and is refused if it is not. Whatever a time field says that is accepted,
the instant that it names is one that a clock of UTC can show, so that stamping a block with it
comes under the same rule.
-/

namespace SealedLogin.DataBlock

variable {b : DataBlock} {now t : Instant}

/-- A time that is text is read as a stamp, and a fault in it is reported with the text. -/
theorem timestamp_of_text {text : String} (h : b.time = Utf8.encode text) :
    b.timestamp = (Stamp.read b.time).mapError fun fault => .decode (.time text fault) := by
  have htext : (Record.mk b.time).text = .ok text := Envelope.text_eq_ok_iff.2 h
  unfold timestamp
  rw [htext]
  cases Stamp.read b.time <;> rfl

theorem timestamp_setTime (h : now.IsUtc) (hyear : now.HasPlainYear) :
    (b.setTime now).timestamp = .ok now.wholeSecond := by
  rw [timestamp_of_text rfl, setTime, Stamp.read_print h hyear]
  rfl

theorem timestamp_setTime_of_not_hasPlainYear (hyear : ¬now.HasPlainYear) :
    ∃ fault, (b.setTime now).timestamp = .error (.decode (.time (Stamp.print now) fault)) := by
  obtain ⟨fault, hread⟩ := Stamp.exists_error_of_not_hasPlainYear hyear
  refine ⟨fault, ?_⟩
  rw [timestamp_of_text rfl, setTime, hread]
  rfl

theorem isUtc_of_timestamp (h : b.timestamp = .ok t) : t.IsUtc :=
  Stamp.isUtc_of_read (Envelope.timestamp_eq_ok_iff.1 h).2

/-- An instant of UTC, leap seconds included, is read back from a block that is stamped with it
without the fraction of its second if it lies in the years from 0 to 9999; otherwise the block has
no time stamp. Every time stamp that is accepted, with whatever offset, fraction or leap second,
names an instant of UTC, and a block that is stamped with that instant gives it back in the
same way. The years from 0 to 9999 are those between two seconds. -/
theorem timestamp_exact :
    (∀ t : Instant, t.HasPlainYear ↔ -62167219200 ≤ t.seconds ∧ t.seconds ≤ 253402300799)
    ∧ (∀ (b : DataBlock) (now : Instant), now.IsUtc →
      (now.HasPlainYear → (b.setTime now).timestamp = .ok now.wholeSecond)
      ∧ (¬now.HasPlainYear →
        ∃ e, (b.setTime now).timestamp = .error e ∧ e.code = "DECODE_ERROR"))
    ∧ ∀ (b : DataBlock) (t : Instant), b.timestamp = .ok t → t.IsUtc
      ∧ (t.HasPlainYear → ∀ b' : DataBlock, (b'.setTime t).timestamp = .ok t.wholeSecond) := by
  refine ⟨fun t => Instant.hasPlainYear_iff, ?_, ?_⟩
  · intro b now h
    refine ⟨timestamp_setTime h, fun hyear => ?_⟩
    obtain ⟨fault, hfault⟩ := timestamp_setTime_of_not_hasPlainYear hyear
    exact ⟨_, hfault, rfl⟩
  · intro b t h
    have ht := isUtc_of_timestamp h
    exact ⟨ht, fun hyear b' => timestamp_setTime ht hyear⟩

/-- The leap second at the end of 2016 is read back, also when it was first read a quarter of a
second later from a clock five and a half hours ahead; the first second of the year 10000 is not. -/
theorem timestamp_exact_leap :
    ((default : DataBlock).setTime ⟨1483228799, 1500000000⟩).timestamp
      = .ok ⟨1483228799, 1000000000⟩
    ∧ (∃ e, ((default : DataBlock).setTime ⟨253402300800, 0⟩).timestamp = .error e
      ∧ e.code = "DECODE_ERROR")
    ∧ (⟨Utf8.encode "2017-01-01T05:29:60.25+05:30", [], [], [], []⟩ : DataBlock).timestamp
      = .ok ⟨1483228799, 1250000000⟩
    ∧ ((default : DataBlock).setTime ⟨1483228799, 1250000000⟩).timestamp
      = .ok ⟨1483228799, 1000000000⟩ := by
  obtain ⟨hyear, hstamped, hread⟩ := timestamp_exact
  have hahead : (⟨Utf8.encode "2017-01-01T05:29:60.25+05:30", [], [], [], []⟩ : DataBlock).timestamp
      = .ok ⟨1483228799, 1250000000⟩ :=
    Envelope.timestamp_eq_ok_iff.2 ⟨⟨_, rfl⟩, by decide +kernel⟩
  refine ⟨?_, ?_, hahead, ?_⟩
  · have hclock : (⟨1483228799, 1500000000⟩ : Instant).IsUtc :=
      ⟨⟨by decide, by decide, by decide⟩, by decide⟩
    exact (hstamped _ _ hclock).1 ((hyear _).2 (by decide))
  · have hclock : (⟨253402300800, 0⟩ : Instant).IsUtc :=
      ⟨⟨by decide, by decide, by decide⟩, by decide⟩
    exact (hstamped _ _ hclock).2 (mt (hyear _).1 (by decide))
  · exact (hread _ _ hahead).2 ((hyear _).2 (by decide)) _

end SealedLogin.DataBlock
