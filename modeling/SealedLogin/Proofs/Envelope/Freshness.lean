import SealedLogin.Proofs.Envelope.Sealing

/-!
# The window of freshness

Two instants are fresh for each other if they are no further apart than the window, to the
nanosecond and whatever the window is: the distance of two representable instants always fits the
longest window (`Instant.natAbs_since_le`), so that a longer one, which is cut down to it, rejects
nothing. The distance is that of the two counts of nanoseconds, but for a leap second, which moves
it by a second at most (`Instant.natAbs_since_sub_le`). It does not depend on which instant is the
stamp and which the clock (`Instant.since_swap`).

An envelope that opens within some window opens to the same payloads within every longer one
(`unpack_of_le`).
-/

namespace SealedLogin

namespace Instant

variable {s t : Instant} {ttl ttl' : Duration}

/-! ### Distances -/

/-- Between two instants outside leap seconds nothing but nanoseconds counts. -/
theorem since_of_not_leap (hs : s.isLeap = false) (ht : t.isLeap = false) :
    t.since s = t.total - s.total := by
  unfold since
  simp [hs, ht]

theorem natAbs_since_sub_le (s t : Instant) :
    (t.since s - (t.total - s.total)).natAbs ≤ Duration.nanosPerSecond := by
  -- at most one of the two corrections applies: their conditions order the seconds of the day
  unfold since
  by_cases h : s.secondOfDay < t.secondOfDay
  · have h' : ¬t.secondOfDay < s.secondOfDay := by omega
    simp only [h, h', decide_true, decide_false, Bool.and_true, Bool.and_false]
    split <;> simp
  · simp only [h, decide_false, Bool.and_false]
    split <;> simp <;> omega

theorem since_swap (s t : Instant) : s.since t = -t.since s := by
  unfold since
  omega

/-! ### Freshness -/

theorem isFresh_comm (s t : Instant) (ttl : Duration) : s.isFresh t ttl = t.isFresh s ttl := by
  unfold isFresh
  rw [since_swap s t, Int.natAbs_neg]

theorem since_self (t : Instant) : t.since t = 0 := by
  have h := since_swap t t
  omega

theorem isFresh_self (t : Instant) (ttl : Duration) : t.isFresh t ttl = true := by
  simp [isFresh, since_self]

theorem isFresh_of_le (h : ttl ≤ ttl') (hfresh : s.isFresh t ttl = true) :
    s.isFresh t ttl' = true := by
  simp only [isFresh, decide_eq_true_eq] at hfresh ⊢
  have hmin : min ttl Duration.longestWindow ≤ min ttl' Duration.longestWindow :=
    Nat.le_min.2 ⟨Nat.le_trans (Nat.min_le_left _ _) h, Nat.min_le_right _ _⟩
  exact Nat.le_trans hfresh hmin

end Instant

namespace Envelope

theorem unpack_of_le {now : Instant} {index : String} {signer : VerifyingKey} {key : SymmetricKey}
    {ttl ttl' : Duration} {text : String} {payloads : List Record} (h : ttl ≤ ttl')
    (hopen : unpack now index signer key ttl text = .ok payloads) :
    unpack now index signer key ttl' text = .ok payloads := by
  obtain ⟨block, ⟨t, hdeciphered, hfresh⟩, hrest⟩ := unpack_eq_ok_iff.1 hopen
  exact unpack_eq_ok_iff.2 ⟨block, ⟨t, hdeciphered, Instant.isFresh_of_le h hfresh⟩, hrest⟩

/-- Whether a stamp is fresh is decided by comparing its distance from the clock with the window, in
numbers that have no limit: the distance is never too long to be compared with the longest window.
Outside leap seconds it is the difference of the counts of nanoseconds, and with leap seconds it is
off from that by a second at most. Stamp and clock may change places, an instant is fresh for itself
in any window, and a longer window accepts whatever a shorter one does, envelopes included. -/
theorem freshness_exact :
    (∀ stamped now : Instant, stamped.IsRepresentable → now.IsRepresentable →
      (now.since stamped).natAbs ≤ Duration.longestWindow
      ∧ ∀ ttl, (stamped.isFresh now ttl = true ↔ (now.since stamped).natAbs ≤ ttl)
        ∧ (stamped.isLeap = false → now.isLeap = false →
          (stamped.isFresh now ttl = true ↔ (now.total - stamped.total).natAbs ≤ ttl)))
    ∧ (∀ stamped now : Instant,
      (now.since stamped - (now.total - stamped.total)).natAbs ≤ Duration.nanosPerSecond)
    ∧ (∀ (stamped now : Instant) ttl, stamped.isFresh now ttl = now.isFresh stamped ttl)
    ∧ (∀ (t : Instant) ttl, t.isFresh t ttl = true)
    ∧ (∀ (stamped now : Instant) ttl ttl', ttl ≤ ttl' → stamped.isFresh now ttl = true →
      stamped.isFresh now ttl' = true)
    ∧ ∀ now index signer key ttl ttl' text payloads, ttl ≤ ttl' →
      unpack now index signer key ttl text = .ok payloads →
        unpack now index signer key ttl' text = .ok payloads := by
  refine ⟨?_, Instant.natAbs_since_sub_le, Instant.isFresh_comm, Instant.isFresh_self,
    fun _ _ _ _ => Instant.isFresh_of_le, fun _ _ _ _ _ _ _ _ => unpack_of_le⟩
  intro stamped now hstamped hnow
  refine ⟨Instant.natAbs_since_le hstamped hnow,
    fun ttl => ⟨Instant.isFresh_iff hstamped hnow ttl, ?_⟩⟩
  intro hs hn
  rw [← Instant.since_of_not_leap hs hn]
  exact Instant.isFresh_iff hstamped hnow ttl

/-- Half a second into a leap second the next minute is half a second away, and the longest window
there is opens an envelope that six seconds open. -/
theorem freshness_exact_leap :
    (⟨59, 1500000000⟩ : Instant).IsRepresentable ∧ (⟨60, 0⟩ : Instant).IsRepresentable
    ∧ (⟨59, 1500000000⟩ : Instant).isFresh ⟨60, 0⟩ 500000000 = true
    ∧ (⟨59, 1500000000⟩ : Instant).isFresh ⟨60, 0⟩ 499999999 = false
    ∧ ∃ text, unpack ⟨1483228805, 0⟩ "PREKEY_0" (SigningIdentity.mk (List.replicate 32 1)).publicKey
        leapKey (Duration.ofSeconds 6) text = .ok leapPayloads
      ∧ unpack ⟨1483228805, 0⟩ "PREKEY_0" (SigningIdentity.mk (List.replicate 32 1)).publicKey
        leapKey (Duration.ofSeconds 18446744073709551615 + 999999999) text = .ok leapPayloads := by
  obtain ⟨hdistance, -, -, -, -, hlonger⟩ := freshness_exact
  have hstamped : (⟨59, 1500000000⟩ : Instant).IsRepresentable :=
    ⟨by decide, by decide, by decide⟩
  have hnow : (⟨60, 0⟩ : Instant).IsRepresentable := ⟨by decide, by decide, by decide⟩
  have hpacked : (⟨1483228799, 1500000000⟩ : Instant).IsUtc :=
    ⟨⟨by decide, by decide, by decide⟩, by decide⟩
  have hyear : (⟨1483228799, 1500000000⟩ : Instant).HasPlainYear :=
    ⟨by decide +kernel, by decide +kernel⟩
  obtain ⟨-, hfresh⟩ := hdistance _ _ hstamped hnow
  obtain ⟨text, hpack⟩ := @exists_pack ⟨1483228799, 1500000000⟩ "PREKEY_0" leapPayloads
    (List.replicate 48 4) ⟨List.replicate 32 1⟩ leapKey hyear (by decide) (by decide +kernel)
  have hopen : unpack ⟨1483228805, 0⟩ "PREKEY_0"
      (SigningIdentity.mk (List.replicate 32 1)).publicKey leapKey (Duration.ofSeconds 6) text
      = .ok leapPayloads := by
    apply unpack_of_pack_of_fresh hpacked hyear ⟨by decide, by decide, by decide⟩ (by decide) hpack
    intro encrypted hencrypted
    cases ciphertext_leapPayloads.symm.trans hencrypted
    exact vouches_leapCiphertext
  refine ⟨hstamped, hnow, (hfresh _).1.2 (by decide), ?_, text, hopen, ?_⟩
  · rw [← Bool.not_eq_true, (hfresh _).1]
    decide
  · exact hlonger _ _ _ _ _ _ _ _ (by decide) hopen

end Envelope

end SealedLogin
