import SealedLogin.Proofs.Envelope.Sealing

/-!
# Altered envelopes

An envelope has one spelling in bytes: other bytes carry another ciphertext, another signature, or
no two parts at all. So an altered envelope is refused for its framing or its signature, before
anything is decrypted, unless it carries a pair that the owner of the key has not sealed and that
verifies all the same (`tampering_refused`).
-/

namespace SealedLogin.Envelope

/-- The text was made with the identity. -/
inductive SealedBy (signer : SigningIdentity) : String → Prop where
  | block {block : DataBlock} {key : SymmetricKey} {left rest : Entropy} {text : String} :
      sealBlock block signer key left = (.ok text, rest) → SealedBy signer text
  | packed {now : Instant} {index : String} {key : SymmetricKey} {payloads : List Record}
      {left rest : Entropy} {text : String} :
      pack now index signer key payloads left = (.ok text, rest) → SealedBy signer text

/-- What becomes of bytes that are changed: some of their bits flipped, their end cut off,
something appended to them, or any others put in their place. -/
inductive Altered (wire : Bytes) : Bytes → Prop where
  | flipped {mask : Bytes} : mask.length = wire.length → (∃ x ∈ mask, x ≠ 0) →
      Altered wire (wire.xor mask)
  | truncated {n : Nat} : n < wire.length → Altered wire (wire.take n)
  | extended {more : Bytes} : more ≠ [] → Altered wire (wire ++ more)
  | replaced {b : Bytes} : b ≠ wire → Altered wire b

/-- Whoever opens the text, with whatever key, index, clock and window, gets the same failure, and
gets it from the framing or the signature. -/
def RefusedUnopened (signer : VerifyingKey) (text : String) : Prop :=
  ∃ e, (∀ now index key ttl, unpack now index signer key ttl text = .error e)
    ∧ (e.code = "INVALID_SIGNATURE"
      ∨ split text = .error e ∧ (e.code = "INVALID_DATA" ∨ e.code = "DECODE_ERROR"))

variable {signer : SigningIdentity} {sealed text : String} {wire b : Bytes}

/-! ### Alterations -/

theorem eq_zero_of_xor_eq_self {mask : Bytes} (hlength : mask.length = wire.length)
    (h : wire.xor mask = wire) : ∀ x ∈ mask, x = 0 := by
  induction wire generalizing mask with
  | nil =>
    rw [List.eq_nil_of_length_eq_zero hlength]
    simp
  | cons y wire ih =>
    cases mask with
    | nil => simp
    | cons x mask =>
      simp only [Bytes.xor, List.zipWith_cons_cons, List.cons.injEq] at h ih
      have hx : x = 0 := (UInt8.xor_right_inj y).1 (h.1.trans UInt8.xor_zero.symm)
      intro z hz
      rcases List.mem_cons.1 hz with rfl | hz
      · exact hx
      · exact ih (by simpa using hlength) h.2 z hz

theorem Altered.ne (h : Altered wire b) : b ≠ wire := by
  cases h with
  | flipped hlength hx =>
    obtain ⟨x, hx, hne⟩ := hx
    exact fun heq => hne (eq_zero_of_xor_eq_self hlength heq x hx)
  | truncated hn =>
    intro heq
    have := congrArg List.length heq
    rw [List.length_take] at this
    omega
  | extended hmore => simpa using hmore
  | replaced hb => exact hb

/-! ### Framing -/

/-- What was made with an identity spells a ciphertext and its signature. -/
theorem SealedBy.exists_signed (h : SealedBy signer sealed) :
    ∃ encrypted wire, signed signer encrypted = .ok wire ∧ sealed = Hex.encode wire := by
  cases h with
  | block h =>
    obtain ⟨plaintext, wire, -, -, hwire, hsealed, -⟩ := sealBlock_eq_ok_iff.1 h
    exact ⟨_, wire, hwire, hsealed⟩
  | packed h =>
    obtain ⟨encrypted, wire, -, -, hwire, hsealed, -⟩ := pack_eq_ok_iff.1 h
    exact ⟨encrypted, wire, hwire, hsealed⟩

/-- The bytes of a text that carries some parts are the bytes that these parts are written as. -/
theorem eq_of_carries {parts : List Record} (h : Carries text parts)
    (hwire : (Record.combine parts).bind Record.marshal = .ok wire) (hb : Hex.Spells text b) :
    b = wire := by
  obtain ⟨wire', hwire', hspells⟩ := h
  rw [← Hex.decode_eq_ok_iff] at hspells hb
  cases hspells.symm.trans hb
  exact Except.ok.inj (hwire'.symm.trans hwire)

/-- A text whose two parts do not verify, or that has no two parts, is not opened. -/
theorem refusedUnopened_of_not_verified {key : VerifyingKey}
    (h : ∀ encrypted, ¬Verified key text encrypted) : RefusedUnopened key text := by
  rcases shape_cases text with ⟨encrypted, signature, hcarries⟩ | ⟨parts, hparts, hlength⟩ | hnone
  · have hsigns : ¬Signs key encrypted signature := fun hs => h encrypted ⟨_, hcarries, hs⟩
    exact ⟨_, fun _ _ _ _ => unpack_of_unsigned hcarries hsigns, .inl rfl⟩
  · have hsplit := split_of_miscounted hparts hlength
    exact ⟨_, fun _ _ _ _ => unpack_of_split_error hsplit, .inr ⟨hsplit, .inl rfl⟩⟩
  · obtain ⟨fault, hsplit⟩ := split_of_malformed hnone
    exact ⟨_, fun _ _ _ _ => unpack_of_split_error hsplit, .inr ⟨hsplit, .inr rfl⟩⟩

/-! ### The outcome -/

/-- An envelope is the spelling of a ciphertext and its signature. An alteration of it is refused,
and not for anything that is inside, if it carries no other pair that verifies. That no other pair
verifies anywhere would be too much to ask, as the owner of the key may sign other messages. -/
theorem tampering_refused (signer : SigningIdentity) (sealed : String)
    (hsealed : SealedBy signer sealed) :
    ∃ encrypted wire, sealed = Hex.encode wire
      ∧ Carries sealed [⟨encrypted⟩, ⟨signer.sign encrypted⟩]
      ∧ ∀ text b, Hex.Spells text b → Altered wire b →
        (∀ m signature, Carries text [⟨m⟩, ⟨signature⟩] →
          signer.publicKey.verify m signature = .ok () →
            m = encrypted ∧ signature = signer.sign encrypted) →
        RefusedUnopened signer.publicKey text := by
  obtain ⟨encrypted, wire, hwire, rfl⟩ := hsealed.exists_signed
  refine ⟨encrypted, wire, rfl, ⟨wire, hwire, Hex.spells_encode wire⟩, ?_⟩
  intro text b htext haltered honly
  refine refusedUnopened_of_not_verified fun m hverified => ?_
  obtain ⟨signature, hcarries, hsigns⟩ := hverified
  obtain ⟨rfl, rfl⟩ := honly m signature hcarries hsigns.2
  exact haltered.ne (eq_of_carries hcarries hwire htext)

/-- The signature of the ciphertext, with every bit of its scalar set. -/
def leapForgery : Bytes :=
  ((SigningIdentity.mk (List.replicate 32 1)).sign leapCiphertext).take 32 ++ List.replicate 32 255

theorem verify_leapForgery :
    (SigningIdentity.mk (List.replicate 32 1)).publicKey.verify leapCiphertext leapForgery
      = .error .scalarTooLarge := by
  have hlength : (((SigningIdentity.mk (List.replicate 32 1)).sign leapCiphertext).take 32).length
      = 32 := by
    rw [List.length_take, SigningIdentity.length_sign]
    rfl
  have hscalar : Curve.groupOrder ≤ Bytes.toNatLE (List.replicate 32 255) := by decide
  rw [VerifyingKey.verify, leapForgery, if_neg (by simp), List.drop_left' hlength]
  dsimp only
  rw [if_pos hscalar]

theorem exists_wire_leapForgery :
    ∃ b, Carries (Hex.encode b) [⟨leapCiphertext⟩, ⟨leapForgery⟩] := by
  have hciphertext : leapCiphertext.length = 192 := by decide +kernel
  have hforgery : leapForgery.length = 64 := by simp [leapForgery]
  have hsize : Record.encodedLengths [⟨leapCiphertext⟩, ⟨leapForgery⟩] < Record.sizeLimit := by
    simp only [Record.encodedLengths, Record.encodedLength, hciphertext, hforgery]
    decide
  obtain ⟨b, hb, -⟩ := Record.combine_bind_marshal_of_encodedLengths hsize
  exact ⟨b, b, hb, Hex.spells_encode b⟩

/-- The envelope that was packed in a leap second is refused with this signature in it. -/
theorem tampering_refused_leap : ∃ sealed wire b,
    SealedBy ⟨List.replicate 32 1⟩ sealed ∧ sealed = Hex.encode wire ∧ Altered wire b
      ∧ RefusedUnopened (SigningIdentity.mk (List.replicate 32 1)).publicKey (Hex.encode b) := by
  obtain ⟨sealed, hpack⟩ := @exists_pack ⟨1483228799, 1500000000⟩ "PREKEY_0" leapPayloads
    (List.replicate 48 4) ⟨List.replicate 32 1⟩ leapKey ⟨by decide +kernel, by decide +kernel⟩
    (by decide) (by decide +kernel)
  have hvouches := vouches_leapCiphertext
  have hverified := (verified_pack_iff hpack ciphertext_leapPayloads).2 ⟨rfl, hvouches⟩
  obtain ⟨encrypted, wire, hwire, hcarries, hrefused⟩ :=
    tampering_refused ⟨List.replicate 32 1⟩ sealed (.packed hpack)
  obtain ⟨_, hcarries', -⟩ := hverified
  cases carries_unique hcarries hcarries'
  obtain ⟨b, hb⟩ := exists_wire_leapForgery
  have hforged : ∀ m signature, Carries (Hex.encode b) [⟨m⟩, ⟨signature⟩] →
      (SigningIdentity.mk (List.replicate 32 1)).publicKey.verify m signature ≠ .ok () := by
    intro m signature hcarried hverify
    cases carries_unique hcarried hb
    cases verify_leapForgery.symm.trans hverify
  have haltered : Altered wire b := by
    refine .replaced fun heq => hforged _ _ ?_ hvouches
    rw [heq, ← hwire]
    exact hcarries
  refine ⟨sealed, wire, b, .packed hpack, hwire, haltered, ?_⟩
  exact hrefused _ b (Hex.spells_encode b) haltered fun m signature hcarried hverify =>
    absurd hverify (hforged m signature hcarried)

end SealedLogin.Envelope
