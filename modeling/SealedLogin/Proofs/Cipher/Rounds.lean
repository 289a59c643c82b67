import Mathlib.Data.Nat.Bitwise
import SealedLogin.Cipher.Aes

/-!
# Decryption undoes encryption, block by block

Every step of a round has an inverse: the table of restorations inverts that of substitutions, the
rows are moved back, and the product of the two circulant matrices is the identity. Hence
`decryptWith_encryptWith` and `encryptWith_decryptWith`, under any list of round keys.
-/

namespace SealedLogin.Aes

theorem forall_byte {P : UInt8 → Prop} (h : ∀ n < 256, P (UInt8.ofNat n)) (x : UInt8) : P x := by
  have := h x.toNat x.toNat_lt
  rwa [UInt8.ofNat_toNat] at this

/-! ### The field -/

/-- One step of a multiplication: adds the present double of `a` if the bit of `b` is set. -/
def timesStep (b : UInt8) (p : UInt8 × UInt8) (i : Nat) : UInt8 × UInt8 :=
  (if b.toNat.testBit i then p.1 ^^^ p.2 else p.1, double p.2)

theorem times_eq_foldl (a b : UInt8) : times a b = ((List.range 8).foldl (timesStep b) (0, a)).1 :=
  rfl

theorem xor_xor_xor_comm (a b c d : UInt8) : (a ^^^ b) ^^^ (c ^^^ d) = (a ^^^ c) ^^^ (b ^^^ d) := by
  rw [UInt8.xor_assoc, UInt8.xor_assoc, ← UInt8.xor_assoc b, UInt8.xor_comm b c, UInt8.xor_assoc]

theorem timesStep_xor (b c p q a : UInt8) (i : Nat) : timesStep (b ^^^ c) (p ^^^ q, a) i =
    ((timesStep b (p, a) i).1 ^^^ (timesStep c (q, a) i).1, double a) := by
  simp only [timesStep, UInt8.toNat_xor, Nat.testBit_xor]
  cases b.toNat.testBit i <;> cases c.toNat.testBit i <;>
    simp only [Bool.xor_false, Bool.xor_true, Bool.not_false, Bool.not_true, Bool.false_eq_true,
      if_true, if_false]
  · rw [UInt8.xor_assoc]
  · rw [UInt8.xor_assoc, UInt8.xor_assoc, UInt8.xor_comm q a]
  · rw [xor_xor_xor_comm, UInt8.xor_self, UInt8.xor_zero]

theorem foldl_timesStep_xor (is : List Nat) (b c p q a : UInt8) :
    (is.foldl (timesStep (b ^^^ c)) (p ^^^ q, a)).1
      = (is.foldl (timesStep b) (p, a)).1 ^^^ (is.foldl (timesStep c) (q, a)).1 := by
  induction is generalizing p q a with
  | nil => rfl
  | cons i is ih =>
    rw [List.foldl_cons, timesStep_xor, ih]
    rfl

/-- Multiplication distributes over addition. -/
theorem times_xor (a b c : UInt8) : times a (b ^^^ c) = times a b ^^^ times a c := by
  rw [times_eq_foldl, times_eq_foldl, times_eq_foldl, ← foldl_timesStep_xor, UInt8.xor_zero]

theorem and_top_bit_eq_zero_iff (a : UInt8) : a &&& 0x80 = 0 ↔ a.toNat.testBit 7 = false := by
  rw [← UInt8.toNat_inj, UInt8.toNat_and]
  change a.toNat &&& 2 ^ 7 = 0 ↔ _
  rw [Nat.and_two_pow]
  cases a.toNat.testBit 7 <;> decide

theorem double_xor (a b : UInt8) : double (a ^^^ b) = double a ^^^ double b := by
  simp only [double, and_top_bit_eq_zero_iff, UInt8.toNat_xor, Nat.testBit_xor]
  rw [UInt8.shiftLeft_xor, xor_xor_xor_comm (a <<< 1)]
  congr 1
  cases a.toNat.testBit 7 <;> cases b.toNat.testBit 7 <;> rfl

theorem foldl_timesStep_double (is : List Nat) (b p a : UInt8) :
    (is.foldl (timesStep b) (double p, double a)).1
      = double (is.foldl (timesStep b) (p, a)).1 := by
  induction is generalizing p a with
  | nil => rfl
  | cons i is ih =>
    rw [List.foldl_cons, List.foldl_cons, timesStep, timesStep]
    cases b.toNat.testBit i with
    | false => exact ih p (double a)
    | true =>
      simp only [if_true, ← double_xor]
      exact ih (p ^^^ a) (double a)

theorem double_times (a b : UInt8) : times (double a) b = double (times a b) :=
  foldl_timesStep_double (List.range 8) b 0 a

theorem foldl_xor_timesStep (is : List Nat) (b p q a c : UInt8) :
    (is.foldl (timesStep b) (p ^^^ q, a ^^^ c)).1
      = (is.foldl (timesStep b) (p, a)).1 ^^^ (is.foldl (timesStep b) (q, c)).1 := by
  induction is generalizing p q a c with
  | nil => rfl
  | cons i is ih =>
    simp only [List.foldl_cons, timesStep, double_xor]
    cases b.toNat.testBit i with
    | false => exact ih p q (double a) (double c)
    | true =>
      simp only [if_true, xor_xor_xor_comm p q a c]
      exact ih (p ^^^ a) (q ^^^ c) (double a) (double c)

theorem xor_times (a b c : UInt8) : times (a ^^^ b) c = times a c ^^^ times b c :=
  foldl_xor_timesStep (List.range 8) c 0 0 a b

theorem zero_times (b : UInt8) : times 0 b = 0 := by
  have h := xor_times 0 0 b
  rwa [UInt8.xor_self, UInt8.xor_self] at h

theorem one_times (b : UInt8) : times 1 b = b := by
  revert b
  exact forall_byte (by decide +kernel)

theorem two_times (b : UInt8) : times 2 b = double b := by
  have h : times (double 1) b = double (times 1 b) := double_times 1 b
  rwa [one_times] at h

theorem three_times (b : UInt8) : times 3 b = double b ^^^ b := by
  have h : times (2 ^^^ 1) b = times 2 b ^^^ times 1 b := xor_times 2 1 b
  rwa [two_times, one_times] at h

/-- What holds of zero and one, and of doubles and sums of elements it holds of, holds of all. -/
theorem element_induction {P : UInt8 → Prop} (zero : P 0) (one : P 1)
    (double : ∀ a, P a → P (double a)) (add : ∀ a b, P a → P b → P (a ^^^ b)) (x : UInt8) :
    P x := by
  have hstep : ∀ (is : List Nat) (p a : UInt8), P p → P a →
      P (is.foldl (timesStep x) (p, a)).1 := by
    intro is
    induction is with
    | nil => exact fun _ _ hp _ => hp
    | cons i is ih =>
      intro p a hp ha
      rw [List.foldl_cons, timesStep]
      cases x.toNat.testBit i with
      | false => exact ih p _ hp (double a ha)
      | true => exact ih (p ^^^ a) _ (add p a hp ha) (double a ha)
  rw [← one_times x]
  exact hstep (List.range 8) 0 1 zero one

theorem times_times (a b c : UInt8) : times (times a b) c = times a (times b c) := by
  induction a using element_induction with
  | zero => simp only [zero_times]
  | one => simp only [one_times]
  | double a ih => rw [double_times, double_times, ih, double_times]
  | add a a' ih ih' => rw [xor_times, xor_times, ih, ih', xor_times]

/-! ### Elements as numbers -/

/-- The double of an element given as a number. -/
def doubleNat (a : Nat) : Nat := bif a.blt 128 then 2 * a else Nat.xor (2 * a) 283

theorem mod_xor_eq {a : Nat} (hle : 128 ≤ a) (hlt : a < 256) :
    2 * a % 2 ^ 8 ^^^ 27 = 2 * a ^^^ 283 := by
  have hmod : (2 * a ^^^ 283) % 2 ^ 8 = 2 * a % 2 ^ 8 ^^^ 27 := Nat.xor_mod_two_pow
  have hdiv : (2 * a ^^^ 283) / 2 ^ 8 = 2 * a / 2 ^ 8 ^^^ 1 := Nat.xor_div_two_pow
  have hone : 2 * a / 2 ^ 8 = 1 := by omega
  rw [hone, Nat.xor_self] at hdiv
  omega

theorem toNat_double (a : UInt8) : (double a).toNat = doubleNat a.toNat := by
  have hlt := a.toNat_lt
  have hshift : (a <<< 1).toNat = 2 * a.toNat % 2 ^ 8 := by
    rw [UInt8.toNat_shiftLeft, Nat.shiftLeft_eq, Nat.mul_comm]
    rfl
  have hbit : a.toNat.testBit 7 = decide (128 ≤ a.toNat) := by
    rw [Nat.testBit_eq_decide_div_mod_eq]
    exact decide_eq_decide.2 (by omega)
  rw [double, UInt8.toNat_xor, hshift, doubleNat]
  simp only [and_top_bit_eq_zero_iff, hbit, decide_eq_false_iff_not]
  by_cases h : 128 ≤ a.toNat
  · have hblt : a.toNat.blt 128 = false := by
      rw [Bool.eq_false_iff, ne_eq, Nat.blt_eq]
      omega
    rw [if_neg (not_not_intro h), hblt]
    exact mod_xor_eq h hlt
  · have hblt : a.toNat.blt 128 = true := by
      rw [Nat.blt_eq]
      omega
    rw [if_pos h, hblt, UInt8.toNat_zero, Nat.xor_zero, Nat.mod_eq_of_lt (by omega)]
    rfl

/-- The product of two elements given as numbers. -/
def timesNat (a b : Nat) : Nat :=
  ((List.range 8).foldl
    (fun p i => (bif b.testBit i then Nat.xor p.1 p.2 else p.1, doubleNat p.2)) (0, a)).1

theorem toNat_times (a b : UInt8) : (times a b).toNat = timesNat a.toNat b.toNat := by
  have hstep : ∀ (is : List Nat) (p : UInt8 × UInt8),
      (is.foldl (timesStep b) p).1.toNat = (is.foldl
        (fun p i => (bif b.toNat.testBit i then Nat.xor p.1 p.2 else p.1, doubleNat p.2))
        (p.1.toNat, p.2.toNat)).1 := by
    intro is
    induction is with
    | nil => exact fun _ => rfl
    | cons i is ih =>
      intro p
      rw [List.foldl_cons, List.foldl_cons, ih, timesStep, toNat_double]
      cases b.toNat.testBit i <;> rfl
  exact hstep (List.range 8) (0, a)

/-! ### Rows -/

theorem unshiftRows_shiftRows (s : Block) : unshiftRows (shiftRows s) = s := by
  refine Vector.ext fun i hi => ?_
  simp only [unshiftRows, shiftRows, Vector.getElem_ofFn]
  congr 1
  omega

theorem shiftRows_unshiftRows (s : Block) : shiftRows (unshiftRows s) = s := by
  refine Vector.ext fun i hi => ?_
  simp only [unshiftRows, shiftRows, Vector.getElem_ofFn]
  congr 1
  omega

/-! ### Columns -/

/-- The entry of column `c` in row `r`, counted around. -/
def entry (s : Block) (c r : Nat) : UInt8 := s[4 * (c % 4) + r % 4]

theorem entry_xor (s t : Block) (c r : Nat) : entry (s.xor t) c r = entry s c r ^^^ entry t c r :=
  Vector.getElem_zipWith _

theorem entry_map (f : UInt8 → UInt8) (s : Block) (c r : Nat) :
    entry (s.map f) c r = f (entry s c r) := Vector.getElem_map _ _

theorem entry_shiftRows (s : Block) (c r : Nat) :
    entry (shiftRows s) c r = entry s (c + r % 4) r := by
  simp only [entry, shiftRows, Vector.getElem_ofFn]
  congr 1
  omega

theorem entry_mixWith (m0 m1 m2 m3 : UInt8) (s : Block) (c r : Nat) :
    entry (mixWith m0 m1 m2 m3 s) c r = times m0 (entry s c r) ^^^ times m1 (entry s c (r + 1))
      ^^^ times m2 (entry s c (r + 2)) ^^^ times m3 (entry s c (r + 3)) := by
  have hc : (4 * (c % 4) + r % 4) / 4 = c % 4 := by omega
  have hr : (4 * (c % 4) + r % 4) % 4 = r % 4 := by omega
  simp only [entry, mixWith, Vector.getElem_ofFn, hc, hr]
  simp only [Nat.mod_add_mod]

theorem entry_add_four (s : Block) (c r : Nat) : entry s c (r + 4) = entry s c r := by
  simp only [entry, Nat.add_mod_right]

theorem eq_of_entry {s t : Block} (h : ∀ c r, entry s c r = entry t c r) : s = t := by
  refine Vector.ext fun i hi => ?_
  have := h (i / 4) (i % 4)
  have hidx : 4 * (i / 4 % 4) + i % 4 % 4 = i := by omega
  simpa only [entry, hidx] using this


/-- Mixings with two circulant matrices are a mixing with their product. -/
theorem mixWith_mixWith (n0 n1 n2 n3 m0 m1 m2 m3 : UInt8) (s : Block) :
    mixWith n0 n1 n2 n3 (mixWith m0 m1 m2 m3 s) =
      mixWith (times n0 m0 ^^^ times n1 m3 ^^^ times n2 m2 ^^^ times n3 m1)
        (times n0 m1 ^^^ times n1 m0 ^^^ times n2 m3 ^^^ times n3 m2)
        (times n0 m2 ^^^ times n1 m1 ^^^ times n2 m0 ^^^ times n3 m3)
        (times n0 m3 ^^^ times n1 m2 ^^^ times n2 m1 ^^^ times n3 m0) s := by
  refine eq_of_entry fun c r => ?_
  have h4 : entry s c (r + 4) = entry s c r := entry_add_four s c r
  have h5 : entry s c (r + 5) = entry s c (r + 1) := entry_add_four s c (r + 1)
  have h6 : entry s c (r + 6) = entry s c (r + 2) := entry_add_four s c (r + 2)
  simp only [entry_mixWith, times_xor, xor_times, times_times, Nat.add_assoc, Nat.reduceAdd,
    h4, h5, h6]
  ac_rfl

theorem mixWith_one (s : Block) : mixWith 1 0 0 0 s = s := by
  refine eq_of_entry fun c r => ?_
  simp only [entry_mixWith, one_times, zero_times, UInt8.xor_zero]

theorem unmixColumns_mixColumns (s : Block) : unmixColumns (mixColumns s) = s := by
  rw [unmixColumns, mixColumns, mixWith_mixWith]
  change mixWith 1 0 0 0 s = s
  exact mixWith_one s

theorem mixColumns_unmixColumns (s : Block) : mixColumns (unmixColumns s) = s := by
  rw [unmixColumns, mixColumns, mixWith_mixWith]
  change mixWith 1 0 0 0 s = s
  exact mixWith_one s

/-! ### Tables -/

/-- A byte of a table whose rows are numbers of sixteen bytes, least significant first. -/
def tableByte (rows : List Nat) (x : UInt8) : UInt8 :=
  UInt8.ofNat (rows.getD (x.toNat / 16) 0 >>> (8 * (x.toNat % 16)))

/-- The substitutions as they are printed in the standard, each row read backwards. -/
def substitutionRows : List Nat :=
  [0x76abd7fe2b670130c56f6bf27b777c63, 0xc072a49cafa2d4adf04759fa7dc982ca,
    0x1531d871f1e5a534ccf73f362693fdb7, 0x75b227ebe28012079a059618c323c704,
    0x842fe329b3d63b52a05a6e1b1a2c8309, 0xcf584c4a39becb6a5bb1fc20ed00d153,
    0xa89f3c507f02f94585334d43fbaaefd0, 0xd2f3ff1021dab6bcf5389d928f40a351,
    0x73195d643d7ea7c41744975fec130ccd, 0xdb0b5ede14b8ee4688902a22dc4f8160,
    0x79e4959162acd3c25c2406490a3a32e0, 0x08ae7a65eaf4566ca94ed58d6d37c8e7,
    0x8a8bbd4b1f74dde8c6b4a61c2e2578ba, 0x9e1dc186b95735610ef6034866b53e70,
    0xdf2855cee9871e9b948ed9691198f8e1, 0x16bb54b00f2d99416842e6bf0d89a18c]

/-- The restorations, likewise. -/
def restorationRows : List Nat :=
  [0xfbd7f3819ea340bf38a53630d56a0952, 0xcbe9dec444438e3487ff2f9b8239e37c,
    0x4ec3fa420b954cee3d23c2a632947b54, 0x25d18b6d49a25b76b224d92866a12e08,
    0x92b6655dcc5ca4d41698688664f6f872, 0x849d8da75746155edab9edfd5048706c,
    0x0645b3b80558e4f70ad3bc8c00abd890, 0x6b8a130103bdafc1020f3fca8f1e2cd0,
    0x73e6b4f0cecff297eadc674f4111913a, 0x6edf751ce837f9e28535ade72274ac96,
    0x1bbe18aa0e62b76f89c5291d711af147, 0xf45acd78fec0db9a2079d2c64b3e56fc,
    0x5fec8027591012b131c7078833a8dd1f, 0xef9cc9939f7ae52d0d4ab519a97f5160,
    0x619953833cbbebc8b0f52aae4d3be0a0, 0x7d0c2155631469e126d677ba7e042b17]

/-- The inverse of an element given as a number. -/
def inverseNat (a : Nat) : Nat :=
  let a2 := timesNat a a
  let a4 := timesNat a2 a2
  let a8 := timesNat a4 a4
  let a16 := timesNat a8 a8
  let a32 := timesNat a16 a16
  let a64 := timesNat a32 a32
  let a128 := timesNat a64 a64
  timesNat (timesNat (timesNat a2 a4) (timesNat a8 a16)) (timesNat (timesNat a32 a64) a128)

theorem inverse_eq (x : UInt8) : inverse x = UInt8.ofNat (inverseNat x.toNat) := by
  simp only [inverseNat, ← toNat_times, UInt8.ofNat_toNat]
  rfl

/-- The table of substitutions is the right one, and each of the two inverts the other. -/
theorem tables_exact (x : UInt8) : substitution x = tableByte substitutionRows x
    ∧ tableByte restorationRows (tableByte substitutionRows x) = x
    ∧ tableByte substitutionRows (tableByte restorationRows x) = x := by
  rw [substitution, inverse_eq]
  revert x
  exact forall_byte (by decide +kernel)

theorem tableByte_restorationRows (x : UInt8) :
    tableByte restorationRows (tableByte substitutionRows x) = x := (tables_exact x).2.1

theorem tableByte_substitutionRows (x : UInt8) :
    tableByte substitutionRows (tableByte restorationRows x) = x := (tables_exact x).2.2

theorem getD_substitutions {n : Nat} (h : n < 256) :
    substitutions.getD n 0 = tableByte substitutionRows (UInt8.ofNat n) := by
  rw [← (tables_exact _).1, substitutions]
  simp [h]

theorem substitute_eq (x : UInt8) : substitute x = tableByte substitutionRows x := by
  rw [substitute, getD_substitutions x.toNat_lt, UInt8.ofNat_toNat]

/-- A table that is filled one entry after another holds what was put under a key, if no other entry
has the same key. -/
theorem getD_foldl_setIfInBounds (key : Nat → Nat) (value : Nat → UInt8) (table : Array UInt8)
    {m : Nat} (hkey : key m < table.size) (N : Nat) (hm : m < N)
    (hinj : ∀ n < N, key n = key m → n = m) :
    ((List.range N).foldl (fun t n => t.setIfInBounds (key n) (value n)) table).getD (key m) 0
      = value m := by
  have hsize : ∀ ns : List Nat,
      (ns.foldl (fun t n => t.setIfInBounds (key n) (value n)) table).size = table.size := by
    intro ns
    generalize table = t
    induction ns generalizing t with
    | nil => rfl
    | cons n ns ih => rw [List.foldl_cons, ih, Array.size_setIfInBounds]
  induction N with
  | zero => exact absurd hm (Nat.not_lt_zero m)
  | succ N ih =>
    rw [List.range_succ, List.foldl_append, List.foldl_cons, List.foldl_nil,
      Array.getD_eq_getD_getElem?, Array.getElem?_setIfInBounds, hsize]
    by_cases heq : key N = key m
    · rw [if_pos heq, if_pos (heq ▸ hkey), hinj N (Nat.lt_succ_self N) heq]
      rfl
    · have hne : m ≠ N := fun h => heq (h ▸ rfl)
      rw [if_neg heq, ← Array.getD_eq_getD_getElem?]
      exact ih (by omega) fun n hn => hinj n (by omega)

theorem restore_eq (x : UInt8) : restore x = tableByte restorationRows x := by
  have hkey : (substitutions.getD (tableByte restorationRows x).toNat 0).toNat = x.toNat := by
    rw [getD_substitutions (UInt8.toNat_lt _), UInt8.ofNat_toNat, tableByte_substitutionRows]
  have hlookup := getD_foldl_setIfInBounds (fun n => (substitutions.getD n 0).toNat) UInt8.ofNat
    (Array.replicate 256 0) (m := (tableByte restorationRows x).toNat)
    (by simpa using UInt8.toNat_lt _) 256 (UInt8.toNat_lt _) ?_
  · rw [restore, ← hkey, restorations]
    exact hlookup.trans UInt8.ofNat_toNat
  · intro n hn heq
    have h := UInt8.toNat_inj.1 heq
    rw [getD_substitutions hn, getD_substitutions (UInt8.toNat_lt _), UInt8.ofNat_toNat] at h
    have hback := congrArg (tableByte restorationRows) h
    rw [tableByte_restorationRows, tableByte_restorationRows] at hback
    rw [← hback, UInt8.toNat_ofNat', Nat.mod_eq_of_lt hn]

theorem restore_substitute (x : UInt8) : restore (substitute x) = x := by
  rw [restore_eq, substitute_eq, tableByte_restorationRows]

theorem substitute_restore (x : UInt8) : substitute (restore x) = x := by
  rw [restore_eq, substitute_eq, tableByte_substitutionRows]

theorem map_restore_substitute (s : Block) : (s.map substitute).map restore = s := by
  ext i hi
  simp only [Vector.getElem_map, restore_substitute]

theorem map_substitute_restore (s : Block) : (s.map restore).map substitute = s := by
  ext i hi
  simp only [Vector.getElem_map, substitute_restore]

/-! ### Rounds -/

theorem decryptRounds_encryptRounds (keys : List Block) (s : Block) :
    decryptRounds keys (encryptRounds keys s) = s := by
  fun_induction encryptRounds keys s with
  | case1 s => rfl
  | case2 k s =>
    rw [decryptRounds, Block.xor_xor_cancel, unshiftRows_shiftRows, map_restore_substitute]
  | case3 k ks s hne ih =>
    rw [decryptRounds, ih, Block.xor_xor_cancel, unmixColumns_mixColumns, unshiftRows_shiftRows,
      map_restore_substitute]
    exact hne

theorem encryptRounds_decryptRounds (keys : List Block) (s : Block) :
    encryptRounds keys (decryptRounds keys s) = s := by
  fun_induction decryptRounds keys s with
  | case1 s => rfl
  | case2 k s =>
    rw [encryptRounds, map_substitute_restore, shiftRows_unshiftRows, Block.xor_xor_cancel]
  | case3 k ks s hne ih =>
    rw [encryptRounds, map_substitute_restore, shiftRows_unshiftRows, mixColumns_unmixColumns,
      Block.xor_xor_cancel, ih]
    exact hne

/-- Decryption of a block undoes its encryption. -/
theorem decryptWith_encryptWith (keys : List Block) (s : Block) :
    decryptWith keys (encryptWith keys s) = s := by
  cases keys with
  | nil => rfl
  | cons k ks => rw [encryptWith, decryptWith, decryptRounds_encryptRounds, Block.xor_xor_cancel]

/-- Encryption of a block undoes its decryption. -/
theorem encryptWith_decryptWith (keys : List Block) (s : Block) :
    encryptWith keys (decryptWith keys s) = s := by
  cases keys with
  | nil => rfl
  | cons k ks => rw [encryptWith, decryptWith, Block.xor_xor_cancel, encryptRounds_decryptRounds]

end SealedLogin.Aes
