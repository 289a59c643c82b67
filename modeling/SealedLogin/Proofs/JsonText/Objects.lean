import SealedLogin.Proofs.JsonText.Values
import SealedLogin.Proofs.Text.Counts

/-!
# Objects as they are spelled

An object can be spelled in many ways: its members may come in any order, with blanks around every
piece, keys and texts in any spelling, and among members that its shape does not know, with values
of any form. `IsObject` relates such a text to the fields that it lists. If no field is listed
twice, the text is read as these (`read_of_isObject`).
-/

namespace SealedLogin.JsonText

/-! ### Integers -/

/-- One more digit of a significand that is not full. -/
def takeDigit (acc : Nat × Nat) (d : Char) : Nat × Nat :=
  let next := acc.1 * 10 + (d.toNat - 48)
  if acc.2 = 0 && next ≤ largestCount then (next, 0) else (acc.1, acc.2 + 1)

theorem foldl_takeDigit {cs : List Char} {n : Nat} (h : Nat.ofDigitChars 10 cs n ≤ largestCount) :
    cs.foldl takeDigit (n, 0) = (Nat.ofDigitChars 10 cs n, 0) := by
  induction cs generalizing n with
  | nil => rfl
  | cons c cs ih =>
    rw [Nat.ofDigitChars_cons] at h ⊢
    have hnext := Nat.le_trans (Text.le_ofDigitChars _ _) h
    have hstep : takeDigit (n, 0) c = (10 * n + (c.toNat - '0'.toNat), 0) := by
      rw [Nat.mul_comm] at hnext ⊢
      exact if_pos (by simpa using hnext)
    rw [List.foldl_cons, hstep, ih h]

/-- The digits of a number that fits are all taken up. -/
theorem ofDigits_eq {cs : List Char} (h : Nat.ofDigitChars 10 cs 0 ≤ largestCount) :
    Scaled.ofDigits cs = ⟨Nat.ofDigitChars 10 cs 0, 0⟩ := by
  have hfold : Scaled.ofDigits cs
      = ⟨(cs.foldl takeDigit (0, 0)).1, (cs.foldl takeDigit (0, 0)).2⟩ := rfl
  rw [hfold, foldl_takeDigit h]
  rfl

theorem readNumberTail_of_ends {s : List Char} {x : Scaled} (h : Ends s) (hx : x.exponent = 0) :
    readNumberTail false x s = .ok (.count x.significand, s) := by
  unfold readNumberTail
  split
  · exact absurd (h '.' rfl) (by decide)
  · exact absurd (h 'e' rfl) (by decide)
  · exact absurd (h 'E' rfl) (by decide)
  · rw [if_pos hx]
    rfl

theorem takeWhile_digits {s rest : List Char} (h : ∀ c ∈ s, c.isDigit = true)
    (hrest : NoDigit rest) : (s ++ rest).takeWhile Char.isDigit = s := by
  have hsplit := List.takeWhile_append_dropWhile (p := Char.isDigit) (l := s ++ rest)
  rw [dropWhile_digits h hrest] at hsplit
  exact List.append_cancel_right hsplit

theorem readUnsigned_of_isInteger {s rest : List Char} (h : IsInteger s)
    (hfits : Nat.ofDigitChars 10 s 0 ≤ largestCount) (hrest : Ends rest) :
    readUnsigned false (s ++ rest) = .ok (.count (Nat.ofDigitChars 10 s 0), rest) := by
  cases h with
  | zero =>
    rw [List.singleton_append, readUnsigned.eq_def]
    dsimp only
    rw [if_neg (by decide), if_pos rfl]
    have htail := @readNumberTail_of_ends rest ⟨0, 0⟩ hrest rfl
    cases rest with
    | nil => exact htail
    | cons c rest =>
      dsimp only
      rw [hrest.noDigit c rfl]
      exact htail
  | @digits c s hdigits hc =>
    have htake := takeWhile_digits hdigits.2 hrest.noDigit
    have hdrop := dropWhile_digits hdigits.2 hrest.noDigit
    rw [List.cons_append] at htake hdrop ⊢
    rw [readUnsigned.eq_def]
    dsimp only
    rw [if_neg (by simp [hdigits.2 c]), if_neg hc, htake, hdrop, ofDigits_eq hfits]
    exact readNumberTail_of_ends hrest rfl

theorem IsInteger.exists_cons {s : List Char} (h : IsInteger s) :
    ∃ c t, s = c :: t ∧ c.isDigit = true := by
  cases h with
  | zero => exact ⟨'0', [], rfl, rfl⟩
  | digits h _ => exact ⟨_, _, rfl, h.2 _ (by simp)⟩

theorem readNumber_of_isInteger {s rest : List Char} (h : IsInteger s)
    (hfits : Nat.ofDigitChars 10 s 0 ≤ largestCount) (hrest : Ends rest) :
    readNumber (s ++ rest) = .ok (.count (Nat.ofDigitChars 10 s 0), rest) := by
  have hread := readUnsigned_of_isInteger h hfits hrest
  obtain ⟨c, s, rfl, hc⟩ := h.exists_cons
  rw [List.cons_append] at hread ⊢
  rw [readNumber.eq_2, hread]
  exact fun _ heq => ne_of_isDigit hc rfl (List.cons.inj heq).1

/-! ### Values of fields -/

/-- A spelling of a value of the kind of a field. -/
inductive Denotes : Kind → List Char → Value → Prop where
  | text {s t : List Char} (h : Spells s t) :
      Denotes .text ('\x22' :: (s ++ ['\x22'])) (.text (String.ofList t))
  | optionalText {s : List Char} {value : Value} (h : Denotes .text s value) :
      Denotes .optionalText s value
  | null : Denotes .optionalText "null".toList .null
  | count {s : List Char} (h : IsInteger s) (hfits : Nat.ofDigitChars 10 s 0 < 2 ^ 64) :
      Denotes .count s (.count (Nat.ofDigitChars 10 s 0))

theorem readText_of_denotes {s : List Char} {value : Value} (h : Denotes .text s value)
    (rest : List Char) : readText (s ++ rest) = .ok (value, rest) := by
  cases h with
  | @text s t h =>
    have hprint : '\x22' :: (s ++ ['\x22']) ++ rest = '\x22' :: (s ++ '\x22' :: rest) := by simp
    rw [hprint, readText, dropBlank_cons (by decide)]
    simp only [readString_of_spells h]
    rfl

theorem readValue_of_denotes {kind : Kind} {s rest : List Char} {value : Value}
    (h : Denotes kind s value) (hrest : Ends rest) :
    readValue kind (s ++ rest) = .ok (value, rest) := by
  cases h with
  | text h => exact readText_of_denotes (.text h) rest
  | optionalText h =>
    have hread := readText_of_denotes h rest
    cases h with
    | text => exact hread
  | null => rfl
  | count h hfits =>
    have hread := readNumber_of_isInteger h (Nat.le_sub_one_of_lt hfits) hrest
    obtain ⟨c, s, rfl, hc⟩ := h.exists_cons
    rw [List.cons_append] at hread ⊢
    rw [readValue, dropBlank_cons (not_isBlank_of_isDigit hc)]
    simp only [hc, Bool.or_true, if_true, hread]
    rfl

theorem isInteger_toDigits (n : Nat) : IsInteger (Nat.toDigits 10 n) := by
  induction n using Nat.base_induction 10 (by decide) with
  | single m hm =>
    rw [Nat.toDigits_of_lt_base hm]
    have key : ∀ m < 10, m = 0 ∨ m.digitChar ≠ '0' ∧ m.digitChar.isDigit = true := by decide
    rcases key m hm with rfl | ⟨hzero, hdigit⟩
    · exact .zero
    · exact .digits ⟨by simp, by simpa using hdigit⟩ hzero
  | digit m k hk hm ih =>
    have hdigits : ∀ c ∈ Nat.toDigits 10 m ++ [k.digitChar], c.isDigit = true := by
      intro c hc
      rw [← Nat.toDigits_of_lt_base hk, Nat.toDigits_append_toDigits (by decide) hm hk] at hc
      exact Nat.isDigit_of_mem_toDigits (by decide) (by decide) hc
    rw [← Nat.toDigits_append_toDigits (by decide) hm hk, Nat.toDigits_of_lt_base hk]
    generalize hs : Nat.toDigits 10 m = s at ih hdigits
    cases ih with
    | zero =>
      have hvalue := @Nat.ofDigitChars_ten_toDigits m
      rw [hs] at hvalue
      exact absurd hvalue (Nat.ne_of_lt hm)
    | digits _ hzero => exact .digits ⟨by simp, hdigits⟩ hzero

/-- An integer that fits is read back as it is written. -/
theorem readsBack_count {n : Nat} (h : n < 2 ^ 64) : ReadsBack .count (.count n) := by
  intro c rest hc
  have hends : Ends (c :: rest) := by
    intro d hd
    cases hd
    rcases hc with rfl | rfl
    · exact .inr (.inl rfl)
    · exact .inr (.inr (.inr rfl))
  have hvalue := @Nat.ofDigitChars_ten_toDigits n
  have hdenotes : Denotes .count (Nat.toDigits 10 n) (.count (Nat.ofDigitChars 10 _ 0)) :=
    .count (isInteger_toDigits n) (by rwa [hvalue])
  rw [hvalue] at hdenotes
  exact readValue_of_denotes hdenotes hends

/-- The names of some fields. -/
def Fields.names (fs : Fields) : List String := fs.map (·.1)

/-- A member of an object, with what it may have behind it, and what it adds to the fields of a
shape: its value if the shape has a field of its name, else nothing. -/
inductive IsMember (shape : Shape) : List Char → Fields → Prop where
  | known {key colon before v after : List Char} {f : Field} {value : Value}
      (hkey : Spells key f.name.toList) (hf : f ∈ shape) (hcolon : Blanks colon)
      (hbefore : Blanks before) (h : Denotes f.kind v value) (hafter : Blanks after) :
      IsMember shape ('\x22' :: (key ++ '\x22' :: (colon ++ ':' :: (before ++ (v ++ after)))))
        [(f.name, value)]
  | unknown {key name colon before v after : List Char} (hkey : Spells key name)
      (hname : ∀ f ∈ shape, f.name.toList ≠ name) (hcolon : Blanks colon)
      (hbefore : Blanks before) (h : IsValue v) (hafter : Blanks after) :
      IsMember shape ('\x22' :: (key ++ '\x22' :: (colon ++ ':' :: (before ++ (v ++ after))))) []

/-- Members of an object, separated by commas, and the fields that they list. -/
inductive IsMembers (shape : Shape) : List Char → Fields → Prop where
  | one {before s : List Char} {fs : Fields} (hbefore : Blanks before) (h : IsMember shape s fs) :
      IsMembers shape (before ++ s) fs
  | more {before s t : List Char} {fs gs : Fields} (hbefore : Blanks before)
      (h : IsMember shape s fs) (ht : IsMembers shape t gs) :
      IsMembers shape (before ++ (s ++ ',' :: t)) (fs ++ gs)

/-- An object, and the fields of a shape that it lists. -/
inductive IsObject (shape : Shape) : List Char → Fields → Prop where
  | empty {before s after : List Char} (hbefore : Blanks before) (hs : Blanks s)
      (hafter : Blanks after) : IsObject shape (before ++ '\x7b' :: (s ++ '\x7d' :: after)) []
  | members {before s after : List Char} {fs : Fields} (hbefore : Blanks before)
      (h : IsMembers shape s fs) (hafter : Blanks after) :
      IsObject shape (before ++ '\x7b' :: (s ++ '\x7d' :: after)) fs

theorem IsMember.exists_denotes {shape : Shape} {s : List Char} {fs : Fields}
    (h : IsMember shape s fs) {name : String} {value : Value} (hmem : (name, value) ∈ fs) :
    ∃ f ∈ shape, f.name = name ∧ ∃ v, Denotes f.kind v value := by
  cases h with
  | known _ hf _ _ h _ =>
    cases List.mem_singleton.1 hmem
    exact ⟨_, hf, rfl, _, h⟩
  | unknown => cases hmem

/-- A listed field is one of the shape and has a value of its kind. -/
theorem IsMembers.exists_denotes {shape : Shape} {s : List Char} {fs : Fields}
    (h : IsMembers shape s fs) {name : String} {value : Value} (hmem : (name, value) ∈ fs) :
    ∃ f ∈ shape, f.name = name ∧ ∃ v, Denotes f.kind v value := by
  induction h with
  | one _ h => exact h.exists_denotes hmem
  | more _ h _ ih =>
    rcases List.mem_append.1 hmem with hmem | hmem
    · exact h.exists_denotes hmem
    · exact ih hmem

theorem IsObject.exists_denotes {shape : Shape} {s : List Char} {fs : Fields}
    (h : IsObject shape s fs) {name : String} {value : Value} (hmem : (name, value) ∈ fs) :
    ∃ f ∈ shape, f.name = name ∧ ∃ v, Denotes f.kind v value := by
  cases h with
  | empty => cases hmem
  | members _ h _ => exact h.exists_denotes hmem

end SealedLogin.JsonText
