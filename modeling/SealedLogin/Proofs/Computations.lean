import SealedLogin.DataBlock
import SealedLogin.ProtocolError

/-!
# Running computations

How a sequence of steps that may fail, and may draw random bytes, comes to its result. A sequence
succeeds exactly if its first step does and the rest does with what the first step gave and left.
-/

namespace SealedLogin

variable {ε α β : Type}

/-! ### Results -/

theorem bind_eq_ok_iff {x : Except ε α} {f : α → Except ε β} {b : β} :
    (x >>= f) = .ok b ↔ ∃ a, x = .ok a ∧ f a = .ok b := by
  cases x <;> simp [bind, Except.bind]

theorem bind_eq_error_iff {x : Except ε α} {f : α → Except ε β} {e : ε} :
    (x >>= f) = .error e ↔ x = .error e ∨ ∃ a, x = .ok a ∧ f a = .error e := by
  cases x <;> simp [bind, Except.bind]

theorem map_eq_ok_iff {x : Except ε α} {f : α → β} {b : β} :
    x.map f = .ok b ↔ ∃ a, x = .ok a ∧ b = f a := by
  cases x <;> simp [Except.map, eq_comm]

theorem ofRead_eq_ok_iff {x : Except Record.Fault α} {a : α} :
    ProtocolError.ofRead x = .ok a ↔ x = .ok a := by
  cases x <;> simp [ProtocolError.ofRead]

theorem ofRead_eq_error_iff {x : Except Record.Fault α} {e : ProtocolError} :
    ProtocolError.ofRead x = .error e ↔ ∃ f, x = .error f ∧ e = .decode (.record f) := by
  cases x <;> simp [ProtocolError.ofRead, eq_comm]

theorem ofWrite_eq_ok_iff {x : Except Record.Oversize α} {a : α} :
    ProtocolError.ofWrite x = .ok a ↔ x = .ok a := by
  cases x <;> simp [ProtocolError.ofWrite]

theorem ofKey_eq_ok_iff {x : Except KeyFault α} {a : α} :
    ProtocolError.ofKey x = .ok a ↔ x = .ok a := by
  cases x <;> simp [ProtocolError.ofKey]

theorem mapError_eq_ok_iff {δ : Type} {x : Except ε α} {f : ε → δ} {a : α} :
    x.mapError f = .ok a ↔ x = .ok a := by
  cases x with
  | error e => exact ⟨nofun, nofun⟩
  | ok b =>
    change Except.ok b = Except.ok a ↔ _
    rw [Except.ok.injEq, Except.ok.injEq]

/-! ### Drawing -/

namespace Drawing

theorem bind_apply (x : Drawing ε α) (f : α → Drawing ε β) (left : Entropy) :
    (x >>= f) left = match x left with
      | (.ok a, left) => f a left
      | (.error e, left) => (.error e, left) := by
  show (ExceptT.bind x f) left = _
  rw [ExceptT.bind]
  show (match x left with | (a, left) => ExceptT.bindCont f a left) = _
  rcases x left with ⟨_ | a, left⟩ <;> rfl

@[simp] theorem ofExcept_apply (x : Except ε α) (left : Entropy) :
    Drawing.ofExcept x left = (x, left) := rfl

theorem bind_of_ok {x : Drawing ε α} {f : α → Drawing ε β} {a : α} {left rest : Entropy}
    (h : x left = (.ok a, rest)) : (x >>= f) left = f a rest := by
  rw [bind_apply, h]

theorem bind_of_error {x : Drawing ε α} {f : α → Drawing ε β} {e : ε} {left rest : Entropy}
    (h : x left = (.error e, rest)) : (x >>= f) left = (.error e, rest) := by
  rw [bind_apply, h]

theorem bind_eq_ok_iff {x : Drawing ε α} {f : α → Drawing ε β} {b : β} {left rest : Entropy} :
    (x >>= f) left = (.ok b, rest) ↔
      ∃ a between, x left = (.ok a, between) ∧ f a between = (.ok b, rest) := by
  constructor
  · intro h
    rcases hx : x left with ⟨_ | a, between⟩
    · rw [bind_of_error hx] at h
      cases h
    · rw [bind_of_ok hx] at h
      exact ⟨a, between, rfl, h⟩
  · rintro ⟨a, between, hx, hf⟩
    rw [bind_of_ok hx, hf]

theorem pure_eq_ok_iff {a b : α} {left rest : Entropy} :
    (pure a : Drawing ε α) left = (.ok b, rest) ↔ b = a ∧ rest = left :=
  ⟨fun h => by cases h; exact ⟨rfl, rfl⟩, fun h => by rw [h.1, h.2]; rfl⟩

theorem ofExcept_eq_ok_iff {x : Except ε α} {a : α} {left rest : Entropy} :
    Drawing.ofExcept x left = (.ok a, rest) ↔ x = .ok a ∧ rest = left :=
  ⟨fun h => by cases h; exact ⟨rfl, rfl⟩, fun h => by rw [h.1, h.2]; rfl⟩

theorem adapt_apply {δ : Type} (x : Drawing ε α) (f : ε → δ) (left : Entropy) :
    (ExceptT.adapt f x : Drawing δ α) left = ((x left).1.mapError f, (x left).2) := rfl

theorem adapt_eq_ok_iff {δ : Type} {x : Drawing ε α} {f : ε → δ} {a : α} {left rest : Entropy} :
    (ExceptT.adapt f x : Drawing δ α) left = (.ok a, rest) ↔ x left = (.ok a, rest) := by
  rw [adapt_apply]
  rcases x left with ⟨_ | a', between⟩
  · exact iff_of_false (fun h => by cases h) (fun h => by cases h)
  · exact ⟨fun h => by cases h; rfl, fun h => by cases h; rfl⟩

/-- Whatever random bytes are left, a failure of the computation is of the kind. -/
def FailsOnly (p : ε → Prop) (d : Drawing ε α) : Prop := ∀ left e, (d left).1 = .error e → p e

variable {p : ε → Prop}

theorem FailsOnly.bind {d : Drawing ε α} {f : α → Drawing ε β} (h : d.FailsOnly p)
    (hf : ∀ a, (f a).FailsOnly p) : (d >>= f).FailsOnly p := by
  intro left e he
  rw [bind_apply] at he
  have hd := h left
  rcases hleft : d left with ⟨e' | a, rest⟩
  · rw [hleft] at hd he
    cases he
    exact hd e rfl
  · rw [hleft] at he
    exact hf a rest e he

theorem failsOnly_pure (a : α) : (pure a : Drawing ε α).FailsOnly p := nofun

theorem failsOnly_ofExcept {x : Except ε α} (h : ∀ e, x = .error e → p e) :
    (Drawing.ofExcept x).FailsOnly p :=
  fun _ => h

theorem failsOnly_adapt {δ : Type} {d : Drawing δ α} {q : δ → Prop} {f : δ → ε}
    (h : d.FailsOnly q) (hf : ∀ e, q e → p (f e)) :
    FailsOnly p (ExceptT.adapt f d : Drawing ε α) := by
  intro left e he
  rw [adapt_apply] at he
  have hd := h left
  cases hleft : (d left).1 with
  | error e' =>
    rw [hleft] at he
    cases he
    exact hf e' (hd e' hleft)
  | ok a =>
    rw [hleft] at he
    cases he

end Drawing

/-- A draw fails only for want of bytes. -/
theorem Entropy.failsOnly_draw (n : Nat) : (Entropy.draw n).FailsOnly (· = .exhausted) := by
  intro left e he
  rw [Entropy.draw] at he
  split at he
  · cases he
  · exact (Except.error.inj he).symm

/-- A draw succeeds exactly if enough bytes are left, and then takes them off the front. -/
theorem Entropy.draw_eq_ok_iff {n : Nat} {b : Bytes} {left rest : Entropy} :
    Entropy.draw n left = (.ok b, rest) ↔
      n ≤ left.length ∧ b = left.take n ∧ rest = left.drop n := by
  rw [Entropy.draw]
  constructor
  · intro h
    split at h
    · next hn =>
      cases h
      exact ⟨hn, rfl, rfl⟩
    · cases h
  · rintro ⟨hn, rfl, rfl⟩
    rw [if_pos hn]

theorem Entropy.failsOnly_drawKeyBytes (n : Nat) :
    (Entropy.drawKeyBytes n).FailsOnly (· = .randomUnavailable .exhausted) :=
  Drawing.failsOnly_adapt (Entropy.failsOnly_draw n) fun _ he => he ▸ rfl

theorem Entropy.drawKeyBytes_eq_ok_iff {n : Nat} {b : Bytes} {left rest : Entropy} :
    Entropy.drawKeyBytes n left = (.ok b, rest) ↔
      n ≤ left.length ∧ b = left.take n ∧ rest = left.drop n := by
  rw [Entropy.drawKeyBytes, Drawing.adapt_eq_ok_iff, Entropy.draw_eq_ok_iff]

/-- A value that is made from bytes drawn for it. -/
theorem Entropy.drawKeyBytes_map_eq_ok_iff {n : Nat} {f : Bytes → α} {a : α}
    {left rest : Entropy} :
    (do return f (← Entropy.drawKeyBytes n) : Drawing CryptoError α) left = (.ok a, rest) ↔
      n ≤ left.length ∧ a = f (left.take n) ∧ rest = left.drop n := by
  rw [Drawing.bind_eq_ok_iff]
  constructor
  · rintro ⟨b, between, hdraw, hpure⟩
    obtain ⟨hle, rfl, rfl⟩ := Entropy.drawKeyBytes_eq_ok_iff.1 hdraw
    obtain ⟨rfl, rfl⟩ := Drawing.pure_eq_ok_iff.1 hpure
    exact ⟨hle, rfl, rfl⟩
  · rintro ⟨hle, rfl, rfl⟩
    exact ⟨_, _, Entropy.drawKeyBytes_eq_ok_iff.2 ⟨hle, rfl, rfl⟩, rfl⟩

end SealedLogin
