import SealedLogin.Proofs.Cipher.Numbers
import SealedLogin.Proofs.Envelope.Opening
import SealedLogin.Proofs.Keys.Signatures
import SealedLogin.Proofs.Time.Stamps

/-!
# What a packed envelope opens to

`pack_eq_ok_iff` says what `pack` writes: the ciphertext of a block under bytes drawn for the nonce
and the initialization vector (`ciphertext`), followed by its signature. Opening it finds that block
again, so that only the clock, the index and the signature are left to decide (`unpack_pack_exact`).
The signature of the ciphertext is assumed to verify, and the envelope to be short enough to be
written; of the block cipher nothing is assumed.
-/

namespace SealedLogin.Envelope

/-! ### Ciphertexts -/

/-- The number of random bytes that an envelope takes. -/
def entropyLength : Nat := 48

/-- The block that is packed for some data. -/
def packedBlock (now : Instant) (index : String) (nonce data : Bytes) : DataBlock :=
  ⟨Utf8.encode (Stamp.print now), nonce, Utf8.encode index, data, Sha512.digest data⟩

/-- What is encrypted in an envelope, given the random bytes that are left: the first 32 of them are
the nonce, the next sixteen the initialization vector. -/
def ciphertext (now : Instant) (index : String) (key : SymmetricKey) (payloads : List Record)
    (left : Entropy) : Except Record.Oversize Bytes := do
  let data ← (Record.combine payloads).bind Record.marshal
  let plaintext ← (packedBlock now index (left.take 32) data).toRecord.bind Record.marshal
  .ok (key.encryptFrom ((left.drop 32).take 16) plaintext)

/-- The envelope of a ciphertext. -/
def signed (signer : SigningIdentity) (encrypted : Bytes) : Except Record.Oversize Bytes :=
  (Record.combine [⟨encrypted⟩, ⟨signer.sign encrypted⟩]).bind Record.marshal

section

variable {now : Instant} {index : String} {signer : SigningIdentity} {key : SymmetricKey}
  {payloads : List Record} {left rest : Entropy} {encrypted : Bytes} {text : String}

theorem ciphertext_eq_ok_iff : ciphertext now index key payloads left = .ok encrypted ↔
    ∃ data plaintext, (Record.combine payloads).bind Record.marshal = .ok data
      ∧ (packedBlock now index (left.take 32) data).toRecord.bind Record.marshal = .ok plaintext
      ∧ encrypted = key.encryptFrom ((left.drop 32).take 16) plaintext := by
  simp only [ciphertext, bind_eq_ok_iff, Except.ok.injEq, eq_comm (a := encrypted)]
  constructor
  · rintro ⟨data, hdata, plaintext, hplaintext, h⟩
    exact ⟨data, plaintext, hdata, hplaintext, h⟩
  · rintro ⟨data, plaintext, hdata, hplaintext, h⟩
    exact ⟨data, hdata, plaintext, hplaintext, h⟩

/-- The text of an envelope is the hexadecimal spelling of it. -/
theorem combine_bind_toHex (rs : List Record) : (Record.combine rs).bind Record.toHex
    = ((Record.combine rs).bind Record.marshal).map Hex.encode := by
  cases Record.combine rs <;> rfl

theorem encrypt_eq_ok_iff {m : Bytes} : key.encrypt m left = (.ok encrypted, rest) ↔
    16 ≤ left.length ∧ encrypted = key.encryptFrom (left.take 16) m ∧ rest = left.drop 16 :=
  Entropy.drawKeyBytes_map_eq_ok_iff

/-- Sealing a block draws sixteen bytes for the initialization vector. -/
theorem sealBlock_eq_ok_iff {block : DataBlock} :
    sealBlock block signer key left = (.ok text, rest) ↔
      ∃ plaintext wire, block.toRecord.bind Record.marshal = .ok plaintext ∧ 16 ≤ left.length
        ∧ signed signer (key.encryptFrom (left.take 16) plaintext) = .ok wire
        ∧ text = Hex.encode wire ∧ rest = left.drop 16 := by
  rw [sealBlock, Drawing.bind_eq_ok_iff]
  constructor
  · rintro ⟨plaintext, between, hplaintext, h⟩
    obtain ⟨hwritten, rfl⟩ := Drawing.ofExcept_eq_ok_iff.1 hplaintext
    obtain ⟨encrypted, between, hencrypt, h⟩ := Drawing.bind_eq_ok_iff.1 h
    obtain ⟨hle, rfl, rfl⟩ := encrypt_eq_ok_iff.1 (Drawing.adapt_eq_ok_iff.1 hencrypt)
    obtain ⟨hwrite, rfl⟩ := Drawing.ofExcept_eq_ok_iff.1 h
    rw [ofWrite_eq_ok_iff, combine_bind_toHex, map_eq_ok_iff] at hwrite
    obtain ⟨wire, hwire, rfl⟩ := hwrite
    exact ⟨plaintext, wire, ofWrite_eq_ok_iff.1 hwritten, hle, hwire, rfl, rfl⟩
  · rintro ⟨plaintext, wire, hplaintext, hle, hwire, rfl, rfl⟩
    refine ⟨plaintext, left, Drawing.ofExcept_eq_ok_iff.2 ⟨ofWrite_eq_ok_iff.2 hplaintext, rfl⟩, ?_⟩
    refine Drawing.bind_eq_ok_iff.2
      ⟨_, _, Drawing.adapt_eq_ok_iff.2 (encrypt_eq_ok_iff.2 ⟨hle, rfl, rfl⟩), ?_⟩
    refine Drawing.ofExcept_eq_ok_iff.2 ⟨ofWrite_eq_ok_iff.2 ?_, rfl⟩
    rw [combine_bind_toHex, map_eq_ok_iff]
    exact ⟨wire, hwire, rfl⟩

/-- A new block takes 32 bytes for its nonce. -/
theorem generateNonce_eq_ok_iff {block block' : DataBlock} :
    block.generateNonce left = (.ok block', rest) ↔ 32 ≤ left.length
      ∧ block' = { block with nonce := left.take 32 } ∧ rest = left.drop 32 := by
  rw [DataBlock.generateNonce, Drawing.bind_eq_ok_iff]
  constructor
  · rintro ⟨nonce, between, hdraw, h⟩
    obtain ⟨rfl, rfl⟩ := Drawing.pure_eq_ok_iff.1 h
    obtain ⟨hle, rfl, rfl⟩ := Entropy.draw_eq_ok_iff.1 (Drawing.adapt_eq_ok_iff.1 hdraw)
    exact ⟨hle, rfl, rfl⟩
  · rintro ⟨hle, rfl, rfl⟩
    refine ⟨_, _, Drawing.adapt_eq_ok_iff.2 ?_, rfl⟩
    exact Entropy.draw_eq_ok_iff.2 ⟨hle, rfl, rfl⟩

theorem create_eq_ok_iff {data : Bytes} {block : DataBlock} :
    DataBlock.create data now left = (.ok block, rest) ↔ 32 ≤ left.length
      ∧ block = ({ (default : DataBlock).setTime now with nonce := left.take 32 }).setData data
      ∧ rest = left.drop 32 := by
  rw [DataBlock.create, Drawing.bind_eq_ok_iff]
  constructor
  · rintro ⟨block', between, hnonce, h⟩
    obtain ⟨hblock, rfl⟩ := Drawing.pure_eq_ok_iff.1 h
    obtain ⟨hle, rfl, rfl⟩ := generateNonce_eq_ok_iff.1 hnonce
    exact ⟨hle, hblock, rfl⟩
  · rintro ⟨hle, hblock, rfl⟩
    exact ⟨_, _, generateNonce_eq_ok_iff.2 ⟨hle, rfl, rfl⟩,
      Drawing.pure_eq_ok_iff.2 ⟨hblock, rfl⟩⟩

theorem setPreKey_setData (now : Instant) (index : String) (nonce data : Bytes) :
    (({ (default : DataBlock).setTime now with nonce := nonce }).setData data).setPreKey index
      = packedBlock now index nonce data := by
  simp only [DataBlock.setPreKey, DataBlock.setData, DataBlock.setTime, packedBlock]

/-- What `pack` writes, and what it takes to write it. -/
theorem pack_eq_ok_iff : pack now index signer key payloads left = (.ok text, rest) ↔
    ∃ encrypted wire, ciphertext now index key payloads left = .ok encrypted
      ∧ entropyLength ≤ left.length ∧ signed signer encrypted = .ok wire
      ∧ text = Hex.encode wire ∧ rest = left.drop entropyLength := by
  rw [pack, Drawing.bind_eq_ok_iff]
  constructor
  · rintro ⟨data, between, hdata, h⟩
    obtain ⟨hwritten, rfl⟩ := Drawing.ofExcept_eq_ok_iff.1 hdata
    obtain ⟨block, between, hblock, h⟩ := Drawing.bind_eq_ok_iff.1 h
    obtain ⟨hle, rfl, rfl⟩ := create_eq_ok_iff.1 hblock
    rw [setPreKey_setData] at h
    obtain ⟨plaintext, wire, hplaintext, hle', hwire, rfl, rfl⟩ := sealBlock_eq_ok_iff.1 h
    refine ⟨_, wire, ciphertext_eq_ok_iff.2
      ⟨data, plaintext, ofWrite_eq_ok_iff.1 hwritten, hplaintext, rfl⟩, ?_, hwire, rfl, ?_⟩
    · rw [List.length_drop] at hle'
      show 48 ≤ _
      omega
    · rw [List.drop_drop]
      rfl
  · rintro ⟨encrypted, wire, hencrypted, hle, hwire, rfl, rfl⟩
    obtain ⟨data, plaintext, hdata, hplaintext, rfl⟩ := ciphertext_eq_ok_iff.1 hencrypted
    have hle48 : 48 ≤ left.length := hle
    refine ⟨data, left, Drawing.ofExcept_eq_ok_iff.2 ⟨ofWrite_eq_ok_iff.2 hdata, rfl⟩, ?_⟩
    refine Drawing.bind_eq_ok_iff.2 ⟨_, _, create_eq_ok_iff.2 ⟨by omega, rfl, rfl⟩, ?_⟩
    rw [setPreKey_setData]
    refine sealBlock_eq_ok_iff.2 ⟨plaintext, wire, hplaintext, ?_, hwire, rfl, ?_⟩
    · rw [List.length_drop]
      omega
    · rw [List.drop_drop]
      rfl

theorem ne_empty_of_pack (h : pack now index signer key payloads left = (.ok text, rest)) :
    text ≠ "" := by
  obtain ⟨encrypted, wire, -, -, hwire, rfl, -⟩ := pack_eq_ok_iff.1 h
  refine Hex.encode_ne_empty ?_
  rintro rfl
  rw [signed] at hwire
  cases hcombine : Record.combine [⟨encrypted⟩, ⟨signer.sign encrypted⟩] with
  | error _ =>
    rw [hcombine] at hwire
    cases hwire
  | ok outer =>
    rw [hcombine] at hwire
    exact Record.marshal_ne_ok_nil outer hwire

/-! ### Sizes -/

/-- The number of bytes that are encrypted in an envelope, before they are padded. -/
def plaintextSize (index : String) (payloads : List Record) : Nat :=
  144 + (Utf8.encode index).length + Record.encodedLengths payloads

/-- The number of bytes of the two parts of an envelope as they are written. -/
def size (index : String) (payloads : List Record) : Nat :=
  4 + (16 + 16 * (plaintextSize index payloads / 16 + 1)) + (4 + 64)

/-- The number of bytes that are encrypted in an envelope, whatever the length of its stamp is. -/
def blockSize (now : Instant) (index : String) (payloads : List Record) : Nat :=
  124 + (Utf8.encode (Stamp.print now)).length + (Utf8.encode index).length
    + Record.encodedLengths payloads

/-- The number of bytes of the two parts of an envelope of a block. -/
def partsSize (block : Nat) : Nat := 4 + (16 + 16 * (block / 16 + 1)) + (4 + 64)

theorem blockSize_eq (hyear : now.HasPlainYear) :
    blockSize now index payloads = plaintextSize index payloads := by
  rw [blockSize, Stamp.length_encode_print hyear, plaintextSize]

theorem exists_ciphertext_of_blockSize (key : SymmetricKey) (hleft : entropyLength ≤ left.length)
    (hsize : partsSize (blockSize now index payloads) < Record.sizeLimit) :
    ∃ encrypted, ciphertext now index key payloads left = .ok encrypted
      ∧ encrypted.length = 16 + 16 * (blockSize now index payloads / 16 + 1) := by
  have hle : 48 ≤ left.length := hleft
  rw [partsSize, blockSize] at hsize
  obtain ⟨data, hdata, hlength⟩ :=
    @Record.combine_bind_marshal_of_encodedLengths payloads (by omega)
  have hblock : 4 + Record.encodedLengths [⟨Utf8.encode (Stamp.print now)⟩, ⟨left.take 32⟩,
      ⟨Utf8.encode index⟩, ⟨data⟩, ⟨Sha512.digest data⟩] = blockSize now index payloads := by
    simp only [Record.encodedLengths, Record.encodedLength, List.length_take, Sha512.length_digest,
      hlength, blockSize]
    omega
  obtain ⟨plaintext, hplaintext, hlength'⟩ :=
    @Record.combine_bind_marshal_of_encodedLengths [⟨Utf8.encode (Stamp.print now)⟩,
      ⟨left.take 32⟩, ⟨Utf8.encode index⟩, ⟨data⟩, ⟨Sha512.digest data⟩]
      (by rw [blockSize] at hblock; omega)
  have hrecord : (packedBlock now index (left.take 32) data).toRecord.bind Record.marshal
      = .ok plaintext := by
    simp only [DataBlock.toRecord, packedBlock]
    exact hplaintext
  refine ⟨_, ciphertext_eq_ok_iff.2 ⟨data, plaintext, hdata, hrecord, rfl⟩, ?_⟩
  rw [SymmetricKey.length_encryptFrom, hlength', hblock, List.length_take, List.length_drop]
  omega

theorem exists_pack_of_blockSize (signer : SigningIdentity) (key : SymmetricKey)
    (hleft : entropyLength ≤ left.length)
    (hsize : partsSize (blockSize now index payloads) < Record.sizeLimit) :
    ∃ text, pack now index signer key payloads left = (.ok text, left.drop entropyLength) := by
  obtain ⟨encrypted, hencrypted, hlength⟩ := exists_ciphertext_of_blockSize key hleft hsize
  have hparts : Record.encodedLengths [⟨encrypted⟩, ⟨signer.sign encrypted⟩]
      = partsSize (blockSize now index payloads) := by
    simp only [Record.encodedLengths, Record.encodedLength, hlength,
      SigningIdentity.length_sign, partsSize]
  obtain ⟨wire, hwire, -⟩ :=
    Record.combine_bind_marshal_of_encodedLengths (lt_of_eq_of_lt hparts hsize)
  exact ⟨_, pack_eq_ok_iff.2 ⟨encrypted, wire, hencrypted, hleft, hwire, rfl, rfl⟩⟩

theorem exists_ciphertext (key : SymmetricKey) (hyear : now.HasPlainYear)
    (hleft : entropyLength ≤ left.length) (hsize : size index payloads < Record.sizeLimit) :
    ∃ encrypted, ciphertext now index key payloads left = .ok encrypted
      ∧ encrypted.length = 16 + 16 * (plaintextSize index payloads / 16 + 1) := by
  have hblock := @blockSize_eq now index payloads hyear
  rw [← hblock]
  exact exists_ciphertext_of_blockSize key hleft (by rw [hblock]; exact hsize)

/-- An envelope that is not too long is packed, and takes 48 random bytes. -/
theorem exists_pack (signer : SigningIdentity) (key : SymmetricKey) (hyear : now.HasPlainYear)
    (hleft : entropyLength ≤ left.length) (hsize : size index payloads < Record.sizeLimit) :
    ∃ text, pack now index signer key payloads left = (.ok text, left.drop entropyLength) :=
  exists_pack_of_blockSize signer key hleft (by rw [blockSize_eq hyear]; exact hsize)

/-- The number of characters of an envelope. -/
theorem length_of_pack (h : pack now index signer key payloads left = (.ok text, rest))
    (hencrypted : ciphertext now index key payloads left = .ok encrypted)
    (hsize : encrypted.length + 72 < Record.sizeLimit) :
    text.length = 2 * (encrypted.length + 76) := by
  obtain ⟨encrypted', wire, hencrypted', -, hwire, rfl, -⟩ := pack_eq_ok_iff.1 h
  cases hencrypted.symm.trans hencrypted'
  have hparts : Record.encodedLengths [⟨encrypted⟩, ⟨signer.sign encrypted⟩]
      = encrypted.length + 72 := by
    simp only [Record.encodedLengths, Record.encodedLength, SigningIdentity.length_sign]
    omega
  obtain ⟨wire', hwire', hlength⟩ :=
    Record.combine_bind_marshal_of_encodedLengths (lt_of_eq_of_lt hparts hsize)
  cases hwire.symm.trans hwire'
  rw [Hex.length_encode, hlength, hparts]
  omega

/-! ### Opening what was packed -/

/-- What verifies in a packed envelope is its ciphertext, under the keys that accept its
signature. -/
theorem verified_pack_iff {other : VerifyingKey} {m : Bytes}
    (h : pack now index signer key payloads left = (.ok text, rest))
    (hencrypted : ciphertext now index key payloads left = .ok encrypted) :
    Verified other text m ↔
      m = encrypted ∧ other.verify encrypted (signer.sign encrypted) = .ok () := by
  obtain ⟨encrypted', wire, hencrypted', -, hwire, rfl, -⟩ := pack_eq_ok_iff.1 h
  cases hencrypted.symm.trans hencrypted'
  have hcarries : Carries (Hex.encode wire) [⟨encrypted⟩, ⟨signer.sign encrypted⟩] :=
    ⟨wire, hwire, Hex.spells_encode wire⟩
  constructor
  · rintro ⟨signature, hm, hsigns⟩
    cases carries_unique hcarries hm
    exact ⟨rfl, hsigns.2⟩
  · rintro ⟨rfl, hverify⟩
    exact ⟨_, hcarries, signs_iff.2 hverify⟩

/-- A ciphertext conceals the block that was packed. -/
theorem conceals_ciphertext (hleft : entropyLength ≤ left.length)
    (h : ciphertext now index key payloads left = .ok encrypted) :
    ∃ data, (Record.combine payloads).bind Record.marshal = .ok data
      ∧ Conceals key encrypted (packedBlock now index (left.take 32) data) := by
  obtain ⟨data, plaintext, hdata, hplaintext, rfl⟩ := ciphertext_eq_ok_iff.1 h
  have hle : 48 ≤ left.length := hleft
  have hiv : ((left.drop 32).take 16).length = 16 := by
    rw [List.length_take, List.length_drop]
    omega
  exact ⟨data, hdata, plaintext, hplaintext, key.decrypt_encryptFrom hiv plaintext⟩

theorem stamped_packedBlock (hnow : now.IsUtc) (hyear : now.HasPlainYear)
    (index : String) (nonce data : Bytes) :
    Stamped (packedBlock now index nonce data) now.wholeSecond := by
  simp only [Stamped, packedBlock]
  exact ⟨⟨Stamp.print now, rfl⟩, Stamp.read_print hnow hyear⟩

/-- Whoever opens an envelope around a ciphertext with its key finds the payloads that were packed,
whatever the clock, the index and the signature. -/
theorem payloads_eq_of_unpack {other other' : VerifyingKey} {now' : Instant} {index' : String}
    {ttl : Duration} {payloads' : List Record} (hleft : entropyLength ≤ left.length)
    (h : ciphertext now index key payloads left = .ok encrypted)
    (hverified : Verified other text encrypted)
    (hunpack : unpack now' index' other' key ttl text = .ok payloads') :
    payloads' = payloads := by
  obtain ⟨m, block, ⟨_, hopened, -⟩, hconceals, hdata⟩ := exists_verified_of_unpack hunpack
  obtain ⟨_, hcarries, -⟩ := hverified
  cases carries_unique hcarries hopened
  obtain ⟨data, hpacked, hconceals'⟩ := conceals_ciphertext hleft h
  have hblock := decryptBlock_eq_ok_iff.2 hconceals
  rw [decryptBlock_eq_ok_iff.2 hconceals'] at hblock
  rw [← Except.ok.inj hblock] at hdata
  exact Record.combine_bind_marshal_injective hdata hpacked

/-- How a packed envelope is opened: clock and index decide. -/
theorem unpack_of_pack (hnow : now.IsUtc) (hyear : now.HasPlainYear)
    (h : pack now index signer key payloads left = (.ok text, rest))
    (hvouches : ∀ encrypted, ciphertext now index key payloads left = .ok encrypted →
      signer.Vouches encrypted) (now' : Instant) (index' : String) (ttl : Duration) :
    unpack now' index' signer.publicKey key ttl text =
      if now.wholeSecond.isFresh now' ttl = false then .error .timeExpired
      else if index ≠ index' then .error .invalidPreKey
      else .ok payloads := by
  obtain ⟨encrypted, wire, hencrypted, hleft, -⟩ := pack_eq_ok_iff.1 h
  have hverified := (verified_pack_iff h hencrypted).2 ⟨rfl, hvouches encrypted hencrypted⟩
  obtain ⟨data, hdata, hconceals⟩ := conceals_ciphertext hleft hencrypted
  have hstamped := stamped_packedBlock hnow hyear index (left.take 32) data
  rw [unpack_of_deciphered ⟨encrypted, hverified, hconceals, hstamped⟩]
  have hindex : (packedBlock now index (left.take 32) data).preKey ≠ Utf8.encode index'
      ↔ index ≠ index' := not_congr ⟨Utf8.encode_injective, congrArg Utf8.encode⟩
  have hhash : (packedBlock now index (left.take 32) data).dataHash
      = Sha512.digest (packedBlock now index (left.take 32) data).data := rfl
  simp only [hindex]
  rw [if_neg (not_not_intro hhash)]
  show (if _ then _ else if _ then _ else payloadsIn data) = _
  rw [payloadsIn_eq_ok_iff.2 hdata]

theorem unpack_of_pack_of_fresh {now' : Instant} {ttl : Duration} (hnow : now.IsUtc)
    (hyear : now.HasPlainYear) (hnow' : now'.IsRepresentable)
    (hfresh : (now'.since now.wholeSecond).natAbs ≤ ttl)
    (h : pack now index signer key payloads left = (.ok text, rest))
    (hvouches : ∀ encrypted, ciphertext now index key payloads left = .ok encrypted →
      signer.Vouches encrypted) :
    unpack now' index signer.publicKey key ttl text = .ok payloads := by
  have hcurrent := (Instant.isFresh_iff hnow.wholeSecond hnow' ttl).2 hfresh
  rw [unpack_of_pack hnow hyear h hvouches, if_neg (by simp [hcurrent]), if_neg (by simp)]

end

/-! ### Computation on numbers -/

/-- `ciphertext`, computed on numbers. -/
def ciphertextNat (now : Instant) (index : String) (key : SymmetricKey) (payloads : List Record)
    (left : Entropy) : Option Bytes := do
  let data ← ((Record.combine payloads).bind Record.marshal).toOption
  let plaintext ← ((Record.combine [⟨Utf8.encode (Stamp.print now)⟩, ⟨left.take 32⟩,
    ⟨Utf8.encode index⟩, ⟨data⟩, ⟨Sha512.digestNat data⟩]).bind Record.marshal).toOption
  some (key.encryptFromNat ((left.drop 32).take 16) plaintext)

theorem toOption_eq_some_iff {ε α : Type} {x : Except ε α} {a : α} :
    x.toOption = some a ↔ x = .ok a := by
  cases x <;> simp [Except.toOption]

theorem ciphertext_of_ciphertextNat {now : Instant} {index : String} {key : SymmetricKey}
    {payloads : List Record} {left : Entropy} {encrypted : Bytes}
    (h : ciphertextNat now index key payloads left = some encrypted) :
    ciphertext now index key payloads left = .ok encrypted := by
  simp only [ciphertextNat, bind, Option.bind_eq_some_iff, toOption_eq_some_iff] at h
  obtain ⟨data, hdata, plaintext, hplaintext, h⟩ := h
  refine ciphertext_eq_ok_iff.2 ⟨data, plaintext, hdata, ?_, ?_⟩
  · simp only [DataBlock.toRecord, packedBlock, Sha512.digest_eq]
    exact hplaintext
  · rw [SymmetricKey.encryptFrom_eq]
    exact (Option.some.inj h).symm

/-! ### The outcome -/

/-- An envelope that was packed opens, under the keys that belong to those it was packed with, to
the payloads in their order, unless the clock is further from the time of packing, cut down to whole
seconds, than the window allows, or else the index is another one. -/
theorem unpack_pack_exact (now now' : Instant) (index index' : String) (signer : SigningIdentity)
    (key : SymmetricKey) (payloads : List Record) (ttl : Duration) (entropy : Entropy)
    (hnow : now.IsUtc) (hyear : now.HasPlainYear) (hnow' : now'.IsRepresentable)
    (hentropy : entropyLength ≤ entropy.length) (hsize : size index payloads < Record.sizeLimit)
    (hvouches : ∀ encrypted, ciphertext now index key payloads entropy = .ok encrypted →
      signer.Vouches encrypted) :
    ∃ text, pack now index signer key payloads entropy = (.ok text, entropy.drop entropyLength)
      ∧ unpack now' index' signer.publicKey key ttl text =
        if ttl < (now'.since now.wholeSecond).natAbs then .error .timeExpired
        else if index ≠ index' then .error .invalidPreKey
        else .ok payloads := by
  obtain ⟨text, htext⟩ := exists_pack signer key hyear hentropy hsize
  refine ⟨text, htext, ?_⟩
  have hfresh : now.wholeSecond.isFresh now' ttl = false
      ↔ ttl < (now'.since now.wholeSecond).natAbs := by
    rw [← Bool.not_eq_true, Instant.isFresh_iff hnow.wholeSecond hnow', Nat.not_le]
  rw [unpack_of_pack hnow hyear htext hvouches]
  simp only [hfresh]

/-- A key that two exchange pairs agree on. -/
def leapKey : SymmetricKey :=
  ⟨Bytes.ofNatBE 32 0xaaa0841662764aeab7f1ee7adb452f2c7efc93f6aa8e327d91c4a23cb737d130,
    Bytes.length_ofNatBE 32 _⟩

/-- The payloads of a login with the login id `a` and an empty password. -/
def leapPayloads : List Record := [⟨[97]⟩, ⟨[]⟩]

/-- The ciphertext of these payloads, packed in the leap second at the end of 2016. -/
def leapCiphertext : Bytes :=
  [0x040404040404040404040404040404044efff8c8788c23a75b75eef388b0fd7d,
    0x28716cf10e147dd73358d9d0ceaea9f042592c812f4a3586b2c1066b618ff9d2,
    0x9bf602784fd89a896972de1e2321dfb599f0c4097f526823e6d0db5efb056578,
    0xc6cf3c5061e474122501778c196fb773183c2ef63653ef116a91dca4147261ca,
    0x01187e699418b909c3c65cf467f408427b9d6e8b2e4f48bad0541054172027e1,
    0x009d8794348cc5159a6920801f9a8e65baf1418fe3df5d7cb0331c64fcddb48a].flatMap (Bytes.ofNatBE 32)

theorem ciphertext_leapPayloads : ciphertext ⟨1483228799, 1500000000⟩ "PREKEY_0" leapKey
    leapPayloads (List.replicate 48 4) = .ok leapCiphertext :=
  ciphertext_of_ciphertextNat (by decide +kernel)

theorem vouches_leapCiphertext :
    (SigningIdentity.mk (List.replicate 32 1)).Vouches leapCiphertext :=
  SigningIdentity.vouches_iff_acceptsNat.2 (by decide +kernel)

/-- An envelope that was packed in a leap second opens six seconds later. -/
theorem unpack_pack_leap_second : ∃ text,
    pack ⟨1483228799, 1500000000⟩ "PREKEY_0" ⟨List.replicate 32 1⟩ leapKey leapPayloads
        (List.replicate 48 4) = (.ok text, [])
      ∧ unpack ⟨1483228805, 0⟩ "PREKEY_0" (SigningIdentity.mk (List.replicate 32 1)).publicKey
          leapKey defaultTtl text = .ok leapPayloads := by
  obtain ⟨text, hpack, hunpack⟩ := unpack_pack_exact ⟨1483228799, 1500000000⟩ ⟨1483228805, 0⟩
    "PREKEY_0" "PREKEY_0" ⟨List.replicate 32 1⟩ leapKey leapPayloads defaultTtl
    (List.replicate 48 4) ⟨⟨by decide, by decide, by decide⟩, by decide⟩
    ⟨by decide +kernel, by decide +kernel⟩ ⟨by decide, by decide, by decide⟩
    (by decide) (by decide +kernel) fun encrypted hencrypted => by
      rw [ciphertext_leapPayloads] at hencrypted
      cases hencrypted
      exact vouches_leapCiphertext
  refine ⟨text, hpack, hunpack.trans ?_⟩
  rw [if_neg (by decide), if_neg (by decide)]

end SealedLogin.Envelope
