import SealedLogin.Proofs.Coding.Canonical
import SealedLogin.Proofs.Envelope.Sealing

/-!
# Edits of a block

A block is made by `create` and then changed by its setters, in any order and with any random bytes.
`Edit` names the setters, and `Edit.written` says what each of them writes to which field; all else
stays as it is (`Edit.get_apply`), so that after any number of edits a field holds what was written
to it last (`get_edited`). What holds of every block that was made this way is `Sound`: the digest
is that of the data, and the nonce has its length.

A block whose fields can be written has a record, from which alone it is read; any record of five
parts is that of a block.
-/

namespace SealedLogin.DataBlock

/-! ### Fields -/

inductive Field where
  | time
  | nonce
  | preKey
  | data
  | dataHash
deriving DecidableEq, Repr

/-- The bytes of a field. -/
def get (b : DataBlock) : Field → Bytes
  | .time => b.time
  | .nonce => b.nonce
  | .preKey => b.preKey
  | .data => b.data
  | .dataHash => b.dataHash

/-! ### Single edits -/

/-- A change of a block. -/
inductive Edit where
  | setTime (now : Instant)
  | generateNonce
  | setData (data : Bytes)
  | setPreKey (index : String)
deriving DecidableEq, Repr

variable {b : DataBlock} {left rest : Entropy}

/-- A nonce that cannot be drawn leaves the random bytes as they were. -/
theorem generateNonce_eq_error_iff {e : ProtocolError} :
    b.generateNonce left = (.error e, rest) ↔
      left.length < nonceLength ∧ e = .randomUnavailable .exhausted ∧ rest = left := by
  by_cases h : nonceLength ≤ left.length
  · rw [Envelope.generateNonce_eq_ok_iff.2 ⟨h, rfl, rfl⟩]
    exact iff_of_false nofun fun hlt => absurd hlt.1 (Nat.not_lt.2 h)
  · have hdraw : Entropy.draw nonceLength left = (.error .exhausted, left) := by
      rw [Entropy.draw, if_neg h]
    have hrun : b.generateNonce left = (.error (.randomUnavailable .exhausted), left) := by
      apply Drawing.bind_of_error
      rw [Drawing.adapt_apply, hdraw]
      rfl
    rw [hrun]
    constructor
    · intro heq
      cases heq
      exact ⟨Nat.not_le.1 h, rfl, rfl⟩
    · rintro ⟨-, rfl, rfl⟩
      rfl

namespace Edit

/-- The changed block, or the failure to change it. -/
def run : Edit → DataBlock → Drawing ProtocolError DataBlock
  | .setTime now, b => return b.setTime now
  | .generateNonce, b => b.generateNonce
  | .setData data, b => return b.setData data
  | .setPreKey index, b => return b.setPreKey index

/-- The block after an edit with the random bytes that are left: the changed one, or the same one if
the edit fails. -/
def apply (e : Edit) (b : DataBlock) (left : Entropy) : DataBlock :=
  match e.run b left with
  | (.ok b', _) => b'
  | (.error _, _) => b

/-- The fields that an edit is there to change. -/
def fields : Edit → List Field
  | .setTime _ => [.time]
  | .generateNonce => [.nonce]
  | .setData _ => [.data, .dataHash]
  | .setPreKey _ => [.preKey]

/-- What an edit writes to a field, if anything: without enough random bytes there is no nonce to
write. -/
def written : Edit → Entropy → Field → Option Bytes
  | .setTime now, _, .time => some (Utf8.encode (Stamp.print now))
  | .generateNonce, left, .nonce =>
      if nonceLength ≤ left.length then some (left.take nonceLength) else none
  | .setData data, _, .data => some data
  | .setData data, _, .dataHash => some (Sha512.digest data)
  | .setPreKey index, _, .preKey => some (Utf8.encode index)
  | _, _, _ => none

theorem written_of_not_mem {e : Edit} {f : Field} (h : f ∉ e.fields) : e.written left f = none := by
  cases e <;> cases f <;> simp_all [fields, written]

@[simp] theorem apply_setTime (now : Instant) : (setTime now).apply b left = b.setTime now := rfl

@[simp] theorem apply_setData (data : Bytes) : (setData data).apply b left = b.setData data := rfl

@[simp] theorem apply_setPreKey (index : String) :
    (setPreKey index).apply b left = b.setPreKey index := rfl

theorem apply_generateNonce (h : nonceLength ≤ left.length) :
    generateNonce.apply b left = { b with nonce := left.take nonceLength } := by
  have hrun : b.generateNonce left = (.ok { b with nonce := left.take 32 }, left.drop 32) :=
    Envelope.generateNonce_eq_ok_iff.2 ⟨h, rfl, rfl⟩
  simp only [apply, run, hrun]
  rfl

theorem apply_generateNonce_of_lt (h : left.length < nonceLength) :
    generateNonce.apply b left = b := by
  have hrun : b.generateNonce left = (.error (.randomUnavailable .exhausted), left) :=
    generateNonce_eq_error_iff.2 ⟨h, rfl, rfl⟩
  simp only [apply, run, hrun]

/-- An edit writes what it is there to write, and leaves everything else alone. -/
theorem get_apply (e : Edit) (b : DataBlock) (left : Entropy) (f : Field) :
    (e.apply b left).get f = (e.written left f).getD (b.get f) := by
  cases e with
  | generateNonce =>
    by_cases h : nonceLength ≤ left.length
    · rw [apply_generateNonce h]
      cases f <;> simp [get, written, h]
    · rw [apply_generateNonce_of_lt (by omega)]
      cases f <;> simp [get, written, h]
  | setTime now => cases f <;> simp [get, written, DataBlock.setTime]
  | setData data => cases f <;> simp [get, written, DataBlock.setData]
  | setPreKey index => cases f <;> simp [get, written, DataBlock.setPreKey]

theorem get_apply_of_not_mem {e : Edit} {f : Field} (h : f ∉ e.fields) :
    (e.apply b left).get f = b.get f := by
  rw [get_apply, written_of_not_mem h, Option.getD_none]

end Edit

/-! ### Many edits -/

/-- The block after some edits, each with the random bytes that are left for it. -/
def edited (b : DataBlock) (edits : List (Edit × Entropy)) : DataBlock :=
  edits.foldl (fun b step => step.1.apply b step.2) b

/-- A field holds what was written to it last. -/
theorem get_edited (b : DataBlock) (edits : List (Edit × Entropy)) (f : Field) :
    (b.edited edits).get f
      = ((edits.filterMap fun step => step.1.written step.2 f).getLast?).getD (b.get f) := by
  induction edits generalizing b with
  | nil => rfl
  | cons step edits ih =>
    -- what the first edit writes, the other ones find there and may write over
    have hrest : (b.edited (step :: edits)).get f
        = ((edits.filterMap fun step => step.1.written step.2 f).getLast?).getD
          ((step.1.apply b step.2).get f) := ih _
    rw [hrest, Edit.get_apply, List.filterMap_cons]
    cases step.1.written step.2 f with
    | none => rfl
    | some v => rw [List.getLast?_cons, Option.getD_some, Option.getD_some]

/-- The digest is that of the data, and the nonce has its length. -/
structure Sound (b : DataBlock) : Prop where
  dataHash_eq : b.dataHash = Sha512.digest b.data
  length_nonce : b.nonce.length = nonceLength

theorem sound_of_create {data : Bytes} {now : Instant}
    (h : create data now left = (.ok b, rest)) : b.Sound := by
  obtain ⟨hle, rfl, -⟩ := Envelope.create_eq_ok_iff.1 h
  exact ⟨rfl, List.length_take_of_le hle⟩

theorem Sound.apply (h : b.Sound) (e : Edit) (left : Entropy) : (e.apply b left).Sound := by
  -- the setters are unfolded, so that no stamp or digest is computed to tell two fields apart
  cases e with
  | setTime now =>
    rw [Edit.apply_setTime, setTime]
    exact ⟨h.dataHash_eq, h.length_nonce⟩
  | setData data =>
    rw [Edit.apply_setData, setData]
    exact ⟨rfl, h.length_nonce⟩
  | setPreKey index =>
    rw [Edit.apply_setPreKey, setPreKey]
    exact ⟨h.dataHash_eq, h.length_nonce⟩
  | generateNonce =>
    by_cases hle : nonceLength ≤ left.length
    · rw [Edit.apply_generateNonce hle]
      exact ⟨h.dataHash_eq, List.length_take_of_le hle⟩
    · rw [Edit.apply_generateNonce_of_lt (by omega)]
      exact h

theorem Sound.edited (h : b.Sound) (edits : List (Edit × Entropy)) : (b.edited edits).Sound := by
  induction edits generalizing b with
  | nil => exact h
  | cons step edits ih => exact ih (h.apply step.1 step.2)

/-! ### Records -/

theorem exists_toRecord (h : ∀ f, (b.get f).length < Record.sizeLimit) :
    ∃ r, b.toRecord = .ok r := by
  apply Record.exists_combine
  intro r hr
  simp only [List.mem_cons, List.not_mem_nil, or_false] at hr
  rcases hr with rfl | rfl | rfl | rfl | rfl
  · exact h .time
  · exact h .nonce
  · exact h .preKey
  · exact h .data
  · exact h .dataHash

theorem exists_five {rs : List Record} (h : rs.length = 5) : ∃ v w x y z, rs = [v, w, x, y, z] := by
  match rs, h with
  | [v, w, x, y, z], _ => exact ⟨v, w, x, y, z, rfl⟩

theorem exists_ofRecord_iff {r : Record} :
    (∃ b, ofRecord r = .ok b) ↔ ∃ parts, r.expand = .ok parts ∧ parts.length = 5 := by
  constructor
  · rintro ⟨b, h⟩
    rw [Envelope.ofRecord_eq_ok_iff, toRecord, ← Record.expand_eq_ok_iff] at h
    exact ⟨_, h, rfl⟩
  · rintro ⟨parts, hparts, hlength⟩
    obtain ⟨⟨time⟩, ⟨nonce⟩, ⟨preKey⟩, ⟨data⟩, ⟨dataHash⟩, rfl⟩ := exists_five hlength
    refine ⟨⟨time, nonce, preKey, data, dataHash⟩, Envelope.ofRecord_eq_ok_iff.2 ?_⟩
    exact Record.expand_eq_ok_iff.1 hparts

/-- Every block that was made and then edited is intact and has a nonce of 32 bytes. An edit changes
no field but its own, and a field holds what was written to it last: new data come with their
digest, and a nonce that cannot be drawn leaves block and random bytes as they were. A block whose
fields can be written has a record, from which it is read again. A record is read as a block exactly
if it has five parts; these are the fields in order, and the block has no other record. The hash
check compares the whole digest. -/
theorem block_integrity :
    (∀ data now left b rest, create data now left = (.ok b, rest) →
      ∀ edits, (b.edited edits).checkHash = true ∧ (b.edited edits).nonce.length = 32)
    ∧ (∀ (e : Edit) (b : DataBlock) left f, f ∉ e.fields → (e.apply b left).get f = b.get f)
    ∧ (∀ (b : DataBlock) edits f, (b.edited edits).get f
      = ((edits.filterMap fun step => step.1.written step.2 f).getLast?).getD (b.get f))
    ∧ (∀ (b : DataBlock) data left, (Edit.setData data).apply b left
      = { b with data := data, dataHash := Sha512.digest data })
    ∧ (∀ (b : DataBlock) left e rest, b.generateNonce left = (.error e, rest) →
      rest = left ∧ Edit.generateNonce.apply b left = b)
    ∧ (∀ b : DataBlock, (∀ f, (b.get f).length < Record.sizeLimit) →
      ∃ r, b.toRecord = .ok r ∧ ofRecord r = .ok b)
    ∧ (∀ r b, ofRecord r = .ok b → b.toRecord = .ok r
      ∧ r.expand = .ok [⟨b.time⟩, ⟨b.nonce⟩, ⟨b.preKey⟩, ⟨b.data⟩, ⟨b.dataHash⟩])
    ∧ (∀ r, (∃ b, ofRecord r = .ok b) ↔ ∃ parts, r.expand = .ok parts ∧ parts.length = 5)
    ∧ ∀ b : DataBlock, b.checkHash = true ↔ b.dataHash = Sha512.digest b.data := by
  refine ⟨?_, fun e b left f => Edit.get_apply_of_not_mem, get_edited, fun b data left => rfl, ?_,
    ?_, ?_, fun r => exists_ofRecord_iff, fun b => Envelope.checkHash_iff⟩
  · intro data now left b rest h edits
    have hsound := (sound_of_create h).edited edits
    exact ⟨Envelope.checkHash_iff.2 hsound.dataHash_eq, hsound.length_nonce⟩
  · intro b left e rest h
    obtain ⟨hlt, -, hrest⟩ := generateNonce_eq_error_iff.1 h
    exact ⟨hrest, Edit.apply_generateNonce_of_lt hlt⟩
  · intro b h
    obtain ⟨r, hr⟩ := exists_toRecord h
    exact ⟨r, hr, Envelope.ofRecord_eq_ok_iff.2 hr⟩
  · intro r b h
    have hr := Envelope.ofRecord_eq_ok_iff.1 h
    exact ⟨hr, Record.expand_eq_ok_iff.2 hr⟩

/-- A block stays intact when its data are replaced and there are no bytes for another nonce. -/
theorem block_integrity_failed_nonce :
    ∃ b rest, create [5] ⟨0, 0⟩ (List.replicate 32 7) = (.ok b, rest)
      ∧ (b.edited [(.setData [6], []), (.generateNonce, [])]).checkHash = true
      ∧ (b.edited [(.setData [6], []), (.generateNonce, [])]).nonce.length = 32
      ∧ ((Edit.setData [6]).apply b []).nonce = b.nonce
      ∧ Edit.generateNonce.apply b [] = b
      ∧ ∃ r, b.toRecord = .ok r ∧ ofRecord r = .ok b ∧ ∃ parts, r.expand = .ok parts := by
  obtain ⟨hsound, hown, -, -, hfailed, hrecord, hread, -, -⟩ := block_integrity
  obtain ⟨b, rest, hb⟩ : ∃ b rest, create [5] ⟨0, 0⟩ (List.replicate 32 7) = (.ok b, rest) :=
    ⟨_, _, Envelope.create_eq_ok_iff.2 ⟨by decide, rfl, rfl⟩⟩
  have hlength : ∀ f, (b.get f).length < Record.sizeLimit := by
    obtain ⟨-, rfl, -⟩ := Envelope.create_eq_ok_iff.1 hb
    have htime : (Utf8.encode (Stamp.print ⟨0, 0⟩)).length < Record.sizeLimit := by decide +kernel
    intro f
    cases f with
    | time => exact htime
    | nonce => decide
    | preKey => decide
    | data => decide
    | dataHash => exact (Sha512.length_digest [5]).trans_lt (by decide)
  obtain ⟨r, hr, hback⟩ := hrecord b hlength
  have hnone : b.generateNonce [] = (.error (.randomUnavailable .exhausted), []) :=
    generateNonce_eq_error_iff.2 ⟨by decide, rfl, rfl⟩
  refine ⟨b, rest, hb, ?_, ?_, ?_, ?_, r, hr, hback, _, (hread r b hback).2⟩
  · exact (hsound _ _ _ _ _ hb _).1
  · exact (hsound _ _ _ _ _ hb _).2
  · exact hown (.setData [6]) b [] .nonce (by decide)
  · exact (hfailed _ _ _ _ hnone).2

end SealedLogin.DataBlock
