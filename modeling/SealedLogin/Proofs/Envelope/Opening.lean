import SealedLogin.Envelope
import SealedLogin.Proofs.Coding.Equality
import SealedLogin.Proofs.Coding.Hex
import SealedLogin.Proofs.Coding.Records
import SealedLogin.Proofs.Computations

/-!
# What an envelope opens to

An envelope that opens is, byte for byte, what its parts are written as: the text spells a record of
two, the first of which conceals a block under the key, whose data are the payloads. `Refusal` gives
for every other envelope the code of the failure, which is that of the first check that fails.

The stages of the text are cumulative: `Carries` is its shape, `Verified` adds the signature,
`Deciphered` the decryption and the time stamp, `Current` the freshness of the stamp.
-/

namespace SealedLogin.Envelope

/-! ### Stages -/

/-- The text spells one record that consists of the given ones. -/
def Carries (text : String) (parts : List Record) : Prop :=
  ∃ wire, (Record.combine parts).bind Record.marshal = .ok wire ∧ Hex.Spells text wire

/-- The signature has its 64 bytes and belongs to the message and the key. -/
def Signs (signer : VerifyingKey) (m signature : Bytes) : Prop :=
  signature.length = 64 ∧ signer.verify m signature = .ok ()

/-- The text is a message and its signature. -/
def Verified (signer : VerifyingKey) (text : String) (encrypted : Bytes) : Prop :=
  ∃ signature, Carries text [⟨encrypted⟩, ⟨signature⟩] ∧ Signs signer encrypted signature

/-- The bytes decrypt to the five fields of a block as they are written. -/
def Conceals (key : SymmetricKey) (encrypted : Bytes) (block : DataBlock) : Prop :=
  ∃ wire, (Record.combine [⟨block.time⟩, ⟨block.nonce⟩, ⟨block.preKey⟩, ⟨block.data⟩,
    ⟨block.dataHash⟩]).bind Record.marshal = .ok wire ∧ key.decrypt encrypted = .ok wire

/-- The time of a block is text and names an instant. -/
def Stamped (block : DataBlock) (t : Instant) : Prop :=
  (∃ text, block.time = Utf8.encode text) ∧ Stamp.read block.time = .ok t

/-- The text is signed, and its message conceals a block with a time stamp. -/
def Deciphered (signer : VerifyingKey) (key : SymmetricKey) (text : String) (block : DataBlock)
    (t : Instant) : Prop :=
  ∃ encrypted, Verified signer text encrypted ∧ Conceals key encrypted block ∧ Stamped block t

/-- The text conceals a block whose time stamp is fresh. -/
def Current (now : Instant) (signer : VerifyingKey) (key : SymmetricKey) (ttl : Duration)
    (text : String) (block : DataBlock) : Prop :=
  ∃ t, Deciphered signer key text block t ∧ t.isFresh now ttl = true

/-- Why an envelope is refused: each rule names the first check that fails, after those that do
not. -/
inductive Refusal (now : Instant) (index : String) (signer : VerifyingKey) (key : SymmetricKey)
    (ttl : Duration) (text : String) : String → Prop where
  | malformed : (∀ parts, ¬Carries text parts) →
      Refusal now index signer key ttl text "DECODE_ERROR"
  | miscounted {parts : List Record} : Carries text parts → parts.length ≠ 2 →
      Refusal now index signer key ttl text "INVALID_DATA"
  | unsigned {encrypted signature : Bytes} : Carries text [⟨encrypted⟩, ⟨signature⟩] →
      ¬Signs signer encrypted signature → Refusal now index signer key ttl text "INVALID_SIGNATURE"
  | undeciphered {encrypted : Bytes} : Verified signer text encrypted →
      (∀ block t, ¬(Conceals key encrypted block ∧ Stamped block t)) →
      Refusal now index signer key ttl text "DECODE_ERROR"
  | stale {block : DataBlock} {t : Instant} : Deciphered signer key text block t →
      t.isFresh now ttl = false → Refusal now index signer key ttl text "TIME_EXPIRED"
  | misdirected {block : DataBlock} : Current now signer key ttl text block →
      block.preKey ≠ Utf8.encode index → Refusal now index signer key ttl text "INVALID_PREKEY"
  | altered {block : DataBlock} : Current now signer key ttl text block →
      block.preKey = Utf8.encode index → block.dataHash ≠ Sha512.digest block.data →
      Refusal now index signer key ttl text "INVALID_DATA_HASH"
  | unreadable {block : DataBlock} : Current now signer key ttl text block →
      block.preKey = Utf8.encode index → block.dataHash = Sha512.digest block.data →
      (∀ payloads, (Record.combine payloads).bind Record.marshal ≠ .ok block.data) →
      Refusal now index signer key ttl text "DECODE_ERROR"

/-! ### Shape -/

theorem carries_iff {text : String} {parts : List Record} :
    Carries text parts ↔ ∃ outer, Record.ofHex text = .ok outer ∧ outer.expand = .ok parts := by
  constructor
  · rintro ⟨wire, hwire, hspells⟩
    obtain ⟨outer, hread, hexpand⟩ := Record.combine_bind_marshal_eq_ok_iff.1 hwire
    refine ⟨outer, ?_, hexpand⟩
    rw [Record.ofHex, Hex.decode_eq_ok_iff.2 hspells]
    exact hread
  · rintro ⟨outer, hread, hexpand⟩
    rw [Record.ofHex] at hread
    split at hread
    · cases hread
    · next wire hdecode =>
      exact ⟨wire, Record.combine_bind_marshal_eq_ok_iff.2 ⟨outer, hread, hexpand⟩,
        Hex.decode_eq_ok_iff.1 hdecode⟩

theorem carries_unique {text : String} {parts parts' : List Record} (h : Carries text parts)
    (h' : Carries text parts') : parts = parts' := by
  obtain ⟨outer, hread, hexpand⟩ := carries_iff.1 h
  obtain ⟨outer', hread', hexpand'⟩ := carries_iff.1 h'
  rw [hread] at hread'
  cases hread'
  rw [hexpand] at hexpand'
  cases hexpand'
  rfl

theorem split_of_carries {text : String} {encrypted signature : Bytes}
    (h : Carries text [⟨encrypted⟩, ⟨signature⟩]) : split text = .ok (encrypted, signature) := by
  obtain ⟨outer, hread, hexpand⟩ := carries_iff.1 h
  simp only [split, hread, hexpand, ProtocolError.ofRead, bind, Except.bind]

theorem split_of_miscounted {text : String} {parts : List Record} (h : Carries text parts)
    (hlength : parts.length ≠ 2) : split text = .error (.invalidData parts.length) := by
  obtain ⟨outer, hread, hexpand⟩ := carries_iff.1 h
  simp only [split, hread, hexpand, ProtocolError.ofRead, bind, Except.bind]
  split
  · exact absurd rfl hlength
  · rfl

theorem split_of_malformed {text : String} (h : ∀ parts, ¬Carries text parts) :
    ∃ fault, split text = .error (.decode fault) := by
  simp only [carries_iff, not_exists, not_and] at h
  rw [split]
  cases hread : Record.ofHex text with
  | error fault => exact ⟨.record fault, rfl⟩
  | ok outer =>
    cases hexpand : outer.expand with
    | error fault =>
      exact ⟨.record fault, by simp [ProtocolError.ofRead, bind, Except.bind, hexpand]⟩
    | ok parts => exact absurd hexpand (h parts outer hread)

/-- A text has the shape of an envelope, another number of parts, or no parts at all. -/
theorem shape_cases (text : String) :
    (∃ encrypted signature, Carries text [⟨encrypted⟩, ⟨signature⟩])
      ∨ (∃ parts, Carries text parts ∧ parts.length ≠ 2) ∨ ∀ parts, ¬Carries text parts := by
  by_cases h : ∃ parts, Carries text parts
  · obtain ⟨parts, hparts⟩ := h
    match parts with
    | [⟨encrypted⟩, ⟨signature⟩] => exact .inl ⟨encrypted, signature, hparts⟩
    | [] | [_] | _ :: _ :: _ :: _ => exact .inr (.inl ⟨_, hparts, by simp⟩)
  · exact .inr (.inr fun parts hparts => h ⟨parts, hparts⟩)

/-! ### Block -/

theorem checkHash_iff {block : DataBlock} :
    block.checkHash = true ↔ block.dataHash = Sha512.digest block.data := by
  rw [DataBlock.checkHash, Bytes.equal_iff, eq_comm]

/-- A record is read as a block exactly if it is the record of that block. -/
theorem ofRecord_eq_ok_iff {r : Record} {block : DataBlock} :
    DataBlock.ofRecord r = .ok block ↔ block.toRecord = .ok r := by
  rw [DataBlock.ofRecord, bind_eq_ok_iff, DataBlock.toRecord, ← Record.expand_eq_ok_iff]
  constructor
  · rintro ⟨parts, hparts, h⟩
    rw [ofRead_eq_ok_iff] at hparts
    split at h
    · cases h
      exact hparts
    · cases h
  · intro h
    exact ⟨_, ofRead_eq_ok_iff.2 h, rfl⟩

theorem ofRecord_eq_error {r : Record} {e : ProtocolError} (h : DataBlock.ofRecord r = .error e) :
    ∃ fault, e = .decode fault := by
  rw [DataBlock.ofRecord, bind_eq_error_iff] at h
  rcases h with h | ⟨parts, -, h⟩
  · obtain ⟨fault, -, rfl⟩ := ofRead_eq_error_iff.1 h
    exact ⟨_, rfl⟩
  · split at h
    · cases h
    · cases h
      exact ⟨_, rfl⟩

theorem decryptBlock_eq_ok_iff {key : SymmetricKey} {encrypted : Bytes} {block : DataBlock} :
    decryptBlock key encrypted = .ok block ↔ Conceals key encrypted block := by
  rw [decryptBlock, Conceals]
  cases hplain : key.decrypt encrypted with
  | error fault => simp
  | ok wire =>
    rw [bind_eq_ok_iff]
    constructor
    · rintro ⟨r, hr, hblock⟩
      rw [ofRead_eq_ok_iff] at hr
      rw [ofRecord_eq_ok_iff] at hblock
      refine ⟨wire, Record.combine_bind_marshal_eq_ok_iff.2 ⟨r, hr, ?_⟩, rfl⟩
      exact Record.expand_eq_ok_iff.2 hblock
    · rintro ⟨wire', hwire, heq⟩
      cases heq
      obtain ⟨r, hr, hexpand⟩ := Record.combine_bind_marshal_eq_ok_iff.1 hwire
      exact ⟨r, ofRead_eq_ok_iff.2 hr, ofRecord_eq_ok_iff.2 (Record.expand_eq_ok_iff.1 hexpand)⟩

theorem decryptBlock_eq_error {key : SymmetricKey} {encrypted : Bytes} {e : ProtocolError}
    (h : decryptBlock key encrypted = .error e) : ∃ fault, e = .decode fault := by
  rw [decryptBlock] at h
  split at h
  · cases h
    exact ⟨_, rfl⟩
  · rcases bind_eq_error_iff.1 h with h | ⟨r, -, h⟩
    · obtain ⟨fault, -, rfl⟩ := ofRead_eq_error_iff.1 h
      exact ⟨_, rfl⟩
    · exact ofRecord_eq_error h

theorem text_eq_ok_iff {r : Record} {s : String} : r.text = .ok s ↔ r.value = Utf8.encode s := by
  rw [Record.text, ← Utf8.decode_eq_ok_iff]
  cases Utf8.decode r.value <;> simp

theorem timestamp_eq_ok_iff {block : DataBlock} {t : Instant} :
    block.timestamp = .ok t ↔ Stamped block t := by
  rw [DataBlock.timestamp, bind_eq_ok_iff, Stamped]
  constructor
  · rintro ⟨text, htext, h⟩
    rw [ofRead_eq_ok_iff, text_eq_ok_iff] at htext
    refine ⟨⟨text, htext⟩, ?_⟩
    split at h
    · next hread =>
      cases h
      exact hread
    · cases h
  · rintro ⟨⟨text, htext⟩, hread⟩
    refine ⟨text, ofRead_eq_ok_iff.2 (text_eq_ok_iff.2 htext), ?_⟩
    rw [hread]

theorem timestamp_eq_error {block : DataBlock} {e : ProtocolError}
    (h : block.timestamp = .error e) : ∃ fault, e = .decode fault := by
  rw [DataBlock.timestamp, bind_eq_error_iff] at h
  rcases h with h | ⟨text, -, h⟩
  · obtain ⟨fault, -, rfl⟩ := ofRead_eq_error_iff.1 h
    exact ⟨_, rfl⟩
  · split at h
    · cases h
    · cases h
      exact ⟨_, rfl⟩

/-! ### Payloads -/

/-- The payloads that the data of a block spell. -/
def payloadsIn (data : Bytes) : Except ProtocolError (List Record) := do
  let r ← ProtocolError.ofRead (Record.unmarshal data)
  ProtocolError.ofRead r.expand

theorem payloadsIn_eq_ok_iff {data : Bytes} {payloads : List Record} :
    payloadsIn data = .ok payloads ↔ (Record.combine payloads).bind Record.marshal = .ok data := by
  rw [payloadsIn, bind_eq_ok_iff, Record.combine_bind_marshal_eq_ok_iff]
  simp only [ofRead_eq_ok_iff]

theorem payloadsIn_eq_error {data : Bytes} {e : ProtocolError} (h : payloadsIn data = .error e) :
    ∃ fault, e = .decode fault := by
  rcases bind_eq_error_iff.1 h with h | ⟨r, -, h⟩
  · obtain ⟨fault, -, rfl⟩ := ofRead_eq_error_iff.1 h
    exact ⟨_, rfl⟩
  · obtain ⟨fault, -, rfl⟩ := ofRead_eq_error_iff.1 h
    exact ⟨_, rfl⟩

/-! ### Whole envelopes -/

section

variable {now : Instant} {index : String} {signer : VerifyingKey} {key : SymmetricKey}
  {ttl : Duration} {text : String}

theorem signs_iff {m signature : Bytes} :
    Signs signer m signature ↔ signer.verify m signature = .ok () := by
  refine ⟨fun h => h.2, fun h => ⟨?_, h⟩⟩
  rw [VerifyingKey.verify] at h
  split at h
  · cases h
  · next hlength => exact Classical.not_not.1 hlength

theorem unpack_of_split_error {e : ProtocolError} (h : split text = .error e) :
    unpack now index signer key ttl text = .error e := by
  rw [unpack, h]
  rfl

theorem unpack_of_unsigned {encrypted signature : Bytes}
    (h : Carries text [⟨encrypted⟩, ⟨signature⟩]) (hs : ¬Signs signer encrypted signature) :
    unpack now index signer key ttl text = .error .invalidSignature := by
  rw [signs_iff] at hs
  cases hverify : signer.verify encrypted signature with
  | error fault =>
    rw [unpack, split_of_carries h]
    simp only [bind, Except.bind, hverify]
  | ok u => exact absurd hverify hs

theorem unpack_of_verified {encrypted : Bytes} (h : Verified signer text encrypted) :
    unpack now index signer key ttl text
      = (do let block ← decryptBlock key encrypted
            openBlock now index ttl block) := by
  obtain ⟨signature, hcarries, hsigns⟩ := h
  rw [unpack, split_of_carries hcarries]
  simp only [bind, Except.bind, hsigns.2]

theorem unpack_of_deciphered {block : DataBlock} {t : Instant}
    (h : Deciphered signer key text block t) : unpack now index signer key ttl text =
      if t.isFresh now ttl = false then .error .timeExpired
      else if block.preKey ≠ Utf8.encode index then .error .invalidPreKey
      else if block.dataHash ≠ Sha512.digest block.data then .error .invalidDataHash
      else payloadsIn block.data := by
  obtain ⟨encrypted, hverified, hconceals, hstamped⟩ := h
  rw [unpack_of_verified hverified, decryptBlock_eq_ok_iff.2 hconceals]
  show openBlock now index ttl block = _
  rw [openBlock, timestamp_eq_ok_iff.2 hstamped]
  simp only [payloadsIn, bind, Except.bind, Bool.not_eq_true', bne_iff_ne, ← checkHash_iff, ne_eq,
    Bool.not_eq_true]

/-- The payloads of a current block that is bound to the index and intact. -/
theorem unpack_of_current {block : DataBlock} (h : Current now signer key ttl text block)
    (hindex : block.preKey = Utf8.encode index)
    (hhash : block.dataHash = Sha512.digest block.data) :
    unpack now index signer key ttl text = payloadsIn block.data := by
  obtain ⟨t, hdeciphered, hfresh⟩ := h
  rw [unpack_of_deciphered hdeciphered, if_neg (by simp [hfresh]),
    if_neg (Classical.not_not.2 hindex), if_neg (Classical.not_not.2 hhash)]

/-- Where a verified ciphertext conceals no block with an instant, reading says so. -/
theorem unpack_of_undeciphered {encrypted : Bytes} (h : Verified signer text encrypted)
    (hnone : ∀ block t, ¬(Conceals key encrypted block ∧ Stamped block t)) :
    ∃ fault, unpack now index signer key ttl text = .error (.decode fault) := by
  rw [unpack_of_verified h]
  cases hblock : decryptBlock key encrypted with
  | error e =>
    obtain ⟨fault, rfl⟩ := decryptBlock_eq_error hblock
    exact ⟨fault, rfl⟩
  | ok block =>
    have hconceals := decryptBlock_eq_ok_iff.1 hblock
    cases ht : block.timestamp with
    | ok t => exact absurd ⟨hconceals, timestamp_eq_ok_iff.1 ht⟩ (hnone block t)
    | error e =>
      obtain ⟨fault, rfl⟩ := timestamp_eq_error ht
      refine ⟨fault, ?_⟩
      show openBlock now index ttl block = _
      rw [openBlock, ht]
      rfl

theorem exists_error_of_refusal {code : String} (h : Refusal now index signer key ttl text code) :
    ∃ e, unpack now index signer key ttl text = .error e ∧ e.code = code := by
  cases h with
  | malformed h =>
    obtain ⟨fault, hsplit⟩ := split_of_malformed h
    exact ⟨_, unpack_of_split_error hsplit, rfl⟩
  | miscounted h hlength => exact ⟨_, unpack_of_split_error (split_of_miscounted h hlength), rfl⟩
  | unsigned h hs => exact ⟨_, unpack_of_unsigned h hs, rfl⟩
  | undeciphered h hnone =>
    obtain ⟨fault, herror⟩ := @unpack_of_undeciphered now index signer key ttl text _ h hnone
    exact ⟨_, herror, rfl⟩
  | stale h hfresh =>
    rw [unpack_of_deciphered h, if_pos hfresh]
    exact ⟨_, rfl, rfl⟩
  | misdirected h hindex =>
    obtain ⟨t, hdeciphered, hfresh⟩ := h
    rw [unpack_of_deciphered hdeciphered, if_neg (by simp [hfresh]), if_pos hindex]
    exact ⟨_, rfl, rfl⟩
  | altered h hindex hhash =>
    obtain ⟨t, hdeciphered, hfresh⟩ := h
    rw [unpack_of_deciphered hdeciphered, if_neg (by simp [hfresh]),
      if_neg (Classical.not_not.2 hindex), if_pos hhash]
    exact ⟨_, rfl, rfl⟩
  | @unreadable block h hindex hhash hnone =>
    rw [unpack_of_current h hindex hhash]
    cases hread : payloadsIn block.data with
    | error e =>
      obtain ⟨fault, rfl⟩ := payloadsIn_eq_error hread
      exact ⟨_, rfl, rfl⟩
    | ok payloads => exact absurd (payloadsIn_eq_ok_iff.1 hread) (hnone payloads)

/-- An envelope opens, or a rule says why it does not. -/
theorem accepted_or_refused (now : Instant) (index : String) (signer : VerifyingKey)
    (key : SymmetricKey) (ttl : Duration) (text : String) :
    (∃ block payloads, Current now signer key ttl text block ∧ block.preKey = Utf8.encode index
      ∧ block.dataHash = Sha512.digest block.data
      ∧ (Record.combine payloads).bind Record.marshal = .ok block.data)
      ∨ ∃ code, Refusal now index signer key ttl text code := by
  rcases shape_cases text with ⟨encrypted, signature, hcarries⟩ | ⟨parts, hparts, hlength⟩ | hnone
  · by_cases hsigns : Signs signer encrypted signature
    · have hverified : Verified signer text encrypted := ⟨signature, hcarries, hsigns⟩
      by_cases hblock : ∃ block t, Conceals key encrypted block ∧ Stamped block t
      · obtain ⟨block, t, hconceals, hstamped⟩ := hblock
        have hdeciphered : Deciphered signer key text block t :=
          ⟨encrypted, hverified, hconceals, hstamped⟩
        cases hfresh : t.isFresh now ttl with
        | false => exact .inr ⟨_, .stale hdeciphered hfresh⟩
        | true =>
          have hcurrent : Current now signer key ttl text block := ⟨t, hdeciphered, hfresh⟩
          by_cases hindex : block.preKey = Utf8.encode index
          · by_cases hhash : block.dataHash = Sha512.digest block.data
            · by_cases hread : ∃ payloads,
                  (Record.combine payloads).bind Record.marshal = .ok block.data
              · obtain ⟨payloads, hread⟩ := hread
                exact .inl ⟨block, payloads, hcurrent, hindex, hhash, hread⟩
              · exact .inr ⟨_, .unreadable hcurrent hindex hhash (not_exists.1 hread)⟩
            · exact .inr ⟨_, .altered hcurrent hindex hhash⟩
          · exact .inr ⟨_, .misdirected hcurrent hindex⟩
      · exact .inr ⟨_, .undeciphered hverified fun block t h => hblock ⟨block, t, h⟩⟩
    · exact .inr ⟨_, .unsigned hcarries hsigns⟩
  · exact .inr ⟨_, .miscounted hparts hlength⟩
  · exact .inr ⟨_, .malformed hnone⟩

theorem unpack_eq_ok_iff {payloads : List Record} :
    unpack now index signer key ttl text = .ok payloads ↔
      ∃ block, Current now signer key ttl text block ∧ block.preKey = Utf8.encode index
        ∧ block.dataHash = Sha512.digest block.data
        ∧ (Record.combine payloads).bind Record.marshal = .ok block.data := by
  constructor
  · intro h
    rcases accepted_or_refused now index signer key ttl text with
      ⟨block, payloads', hcurrent, hindex, hhash, hread⟩ | ⟨code, hrefusal⟩
    · rw [unpack_of_current hcurrent hindex hhash, payloadsIn_eq_ok_iff.2 hread] at h
      cases h
      exact ⟨block, hcurrent, hindex, hhash, hread⟩
    · obtain ⟨e, he, -⟩ := exists_error_of_refusal hrefusal
      rw [h] at he
      cases he
  · rintro ⟨block, hcurrent, hindex, hhash, hread⟩
    rw [unpack_of_current hcurrent hindex hhash]
    exact payloadsIn_eq_ok_iff.2 hread

/-- An envelope that opens is a verified ciphertext that conceals the payloads. -/
theorem exists_verified_of_unpack {payloads : List Record}
    (h : unpack now index signer key ttl text = .ok payloads) :
    ∃ encrypted block, Verified signer text encrypted ∧ Conceals key encrypted block
      ∧ (Record.combine payloads).bind Record.marshal = .ok block.data := by
  obtain ⟨block, ⟨t, ⟨encrypted, hverified, hconceals, -⟩, -⟩, -, -, hdata⟩ := unpack_eq_ok_iff.1 h
  exact ⟨encrypted, block, hverified, hconceals, hdata⟩

theorem refusal_iff {code : String} : Refusal now index signer key ttl text code ↔
    ∃ e, unpack now index signer key ttl text = .error e ∧ e.code = code := by
  refine ⟨exists_error_of_refusal, ?_⟩
  rintro ⟨e, he, rfl⟩
  rcases accepted_or_refused now index signer key ttl text with
    ⟨block, payloads, hcurrent, hindex, hhash, hread⟩ | ⟨code, hrefusal⟩
  · rw [unpack_eq_ok_iff.2 ⟨block, hcurrent, hindex, hhash, hread⟩] at he
    cases he
  · obtain ⟨e', he', rfl⟩ := exists_error_of_refusal hrefusal
    rw [he] at he'
    cases he'
    exact hrefusal

/-- Without a verified ciphertext the outcome depends on the text and the signer alone. -/
theorem unpack_eq_of_not_verified (h : ∀ encrypted, ¬Verified signer text encrypted)
    (now' : Instant) (index' : String) (key' : SymmetricKey) (ttl' : Duration) :
    unpack now index signer key ttl text = unpack now' index' signer key' ttl' text := by
  rcases shape_cases text with ⟨encrypted, signature, hcarries⟩ | ⟨parts, hparts, hlength⟩ | hnone
  · have hsigns : ¬Signs signer encrypted signature := fun hs => h encrypted ⟨_, hcarries, hs⟩
    rw [unpack_of_unsigned hcarries hsigns, unpack_of_unsigned hcarries hsigns]
  · have hsplit := split_of_miscounted hparts hlength
    rw [unpack_of_split_error hsplit, unpack_of_split_error hsplit]
  · obtain ⟨fault, hsplit⟩ := split_of_malformed hnone
    rw [unpack_of_split_error hsplit, unpack_of_split_error hsplit]

end

/-- An envelope opens to some payloads exactly if the text spells a ciphertext and its signature,
the ciphertext conceals a block with a fresh time stamp that is bound to the index and intact, and
the data of the block are the payloads. Any other envelope is refused with the code of the first
check that fails; if shape or signature fail, everything but text and signer is without effect. -/
theorem unpack_exact (now : Instant) (index : String) (signer : VerifyingKey) (key : SymmetricKey)
    (ttl : Duration) (text : String) :
    (∀ payloads, unpack now index signer key ttl text = .ok payloads ↔
      ∃ wire encrypted signature plain time nonce preKey data dataHash stamp t,
        Hex.Spells text wire
        ∧ (Record.combine [⟨encrypted⟩, ⟨signature⟩]).bind Record.marshal = .ok wire
        ∧ signature.length = 64 ∧ signer.verify encrypted signature = .ok ()
        ∧ key.decrypt encrypted = .ok plain
        ∧ (Record.combine [⟨time⟩, ⟨nonce⟩, ⟨preKey⟩, ⟨data⟩, ⟨dataHash⟩]).bind Record.marshal
          = .ok plain
        ∧ time = Utf8.encode stamp ∧ Stamp.read time = .ok t ∧ t.isFresh now ttl = true
        ∧ preKey = Utf8.encode index ∧ dataHash = Sha512.digest data
        ∧ (Record.combine payloads).bind Record.marshal = .ok data)
    ∧ (∀ code, (∃ e, unpack now index signer key ttl text = .error e ∧ e.code = code) ↔
      Refusal now index signer key ttl text code)
    ∧ ((∀ encrypted, ¬Verified signer text encrypted) → ∀ now' index' key' ttl',
      unpack now index signer key ttl text = unpack now' index' signer key' ttl' text) := by
  refine ⟨fun payloads => ?_, fun code => refusal_iff.symm, unpack_eq_of_not_verified⟩
  rw [unpack_eq_ok_iff]
  constructor
  · rintro ⟨⟨time, nonce, preKey, data, dataHash⟩, ⟨t, ⟨encrypted, hverified, hconceals, hstamped⟩,
      hfresh⟩, hindex, hhash, hread⟩
    obtain ⟨signature, ⟨wire, hwire, hspells⟩, hlength, hverify⟩ := hverified
    obtain ⟨plain, hplain, hdecrypt⟩ := hconceals
    obtain ⟨⟨stamp, hstamp⟩, ht⟩ := hstamped
    exact ⟨wire, encrypted, signature, plain, time, nonce, preKey, data, dataHash, stamp, t,
      hspells, hwire, hlength, hverify, hdecrypt, hplain, hstamp, ht, hfresh, hindex, hhash, hread⟩
  · rintro ⟨wire, encrypted, signature, plain, time, nonce, preKey, data, dataHash, stamp, t,
      hspells, hwire, hlength, hverify, hdecrypt, hplain, hstamp, ht, hfresh, hindex, hhash, hread⟩
    have hverified : Verified signer text encrypted :=
      ⟨signature, ⟨wire, hwire, hspells⟩, hlength, hverify⟩
    have hdeciphered : Deciphered signer key text ⟨time, nonce, preKey, data, dataHash⟩ t :=
      ⟨encrypted, hverified, ⟨plain, hplain, hdecrypt⟩, ⟨stamp, hstamp⟩, ht⟩
    exact ⟨_, ⟨t, hdeciphered, hfresh⟩, hindex, hhash, hread⟩

end SealedLogin.Envelope
