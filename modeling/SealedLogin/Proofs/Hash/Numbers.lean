import SealedLogin.Hash.Sha512
import SealedLogin.Proofs.Coding.Pieces

/-!
# SHA-512 on numbers

The digest computed on numbers below `2 ^ 64` in place of words (`digest_eq`). Proofs about a fixed
message need this: the kernel computes with numbers fast, with words it does not. The schedule of a
block is not built up first; the last sixteen of its words are carried along with the rounds.
-/

namespace SealedLogin.Sha512

/-! ### Words -/

/-- The number of words. -/
def wordLimit : Nat := 18446744073709551616

/-- Addition of words given as numbers. -/
def addNat (x y : Nat) : Nat := (x.add y).mod wordLimit

/-- Rotation of a word given as a number to the right. -/
def rotrNat (x n : Nat) : Nat := (x.shiftRight n).lor ((x.shiftLeft (Nat.sub 64 n)).mod wordLimit)

theorem toNat_rotr (x n : UInt64) (hn : 0 < n.toNat ∧ n.toNat < 64) :
    (rotr x n).toNat = rotrNat x.toNat n.toNat := by
  have hsub : (64 - n).toNat = 64 - n.toNat := by
    rw [UInt64.toNat_sub_of_le]
    · rfl
    · rw [UInt64.le_iff_toNat_le]
      exact Nat.le_of_lt hn.2
  rw [rotr, UInt64.toNat_or, UInt64.toNat_shiftRight, UInt64.toNat_shiftLeft, hsub,
    Nat.mod_eq_of_lt hn.2, Nat.mod_eq_of_lt (by omega : 64 - n.toNat < 64)]
  rfl

/-- The exclusive or of three rotations of a word given as a number. -/
def rotrsNat (i j k x : Nat) : Nat := ((rotrNat x i).xor (rotrNat x j)).xor (rotrNat x k)

/-- The exclusive or of two rotations of a word given as a number, and a shift of it. -/
def rotrsShiftNat (i j k x : Nat) : Nat := ((rotrNat x i).xor (rotrNat x j)).xor (x.shiftRight k)

/-- `choose` on numbers. -/
def chooseNat (x y z : Nat) : Nat := (x.land y).xor ((Nat.sub 18446744073709551615 x).land z)

/-- `majority` on numbers. -/
def majorityNat (x y z : Nat) : Nat := ((x.land y).xor (x.land z)).xor (y.land z)

theorem toNat_bigSigma0 (x : UInt64) : (bigSigma0 x).toNat = rotrsNat 28 34 39 x.toNat := by
  rw [bigSigma0, UInt64.toNat_xor, UInt64.toNat_xor, toNat_rotr x _ (by decide),
    toNat_rotr x _ (by decide), toNat_rotr x _ (by decide)]
  rfl

theorem toNat_bigSigma1 (x : UInt64) : (bigSigma1 x).toNat = rotrsNat 14 18 41 x.toNat := by
  rw [bigSigma1, UInt64.toNat_xor, UInt64.toNat_xor, toNat_rotr x _ (by decide),
    toNat_rotr x _ (by decide), toNat_rotr x _ (by decide)]
  rfl

theorem toNat_smallSigma0 (x : UInt64) : (smallSigma0 x).toNat = rotrsShiftNat 1 8 7 x.toNat := by
  rw [smallSigma0, UInt64.toNat_xor, UInt64.toNat_xor, toNat_rotr x _ (by decide),
    toNat_rotr x _ (by decide), UInt64.toNat_shiftRight]
  rfl

theorem toNat_smallSigma1 (x : UInt64) : (smallSigma1 x).toNat = rotrsShiftNat 19 61 6 x.toNat := by
  rw [smallSigma1, UInt64.toNat_xor, UInt64.toNat_xor, toNat_rotr x _ (by decide),
    toNat_rotr x _ (by decide), UInt64.toNat_shiftRight]
  rfl

theorem toNat_choose (x y z : UInt64) :
    (choose x y z).toNat = chooseNat x.toNat y.toNat z.toNat := by
  rw [choose, UInt64.toNat_xor, UInt64.toNat_and, UInt64.toNat_and, UInt64.toNat_not]
  rfl

theorem toNat_majority (x y z : UInt64) :
    (majority x y z).toNat = majorityNat x.toNat y.toNat z.toNat := by
  rw [majority, UInt64.toNat_xor, UInt64.toNat_xor, UInt64.toNat_and, UInt64.toNat_and,
    UInt64.toNat_and]
  rfl

theorem toNat_add (x y : UInt64) : (x + y).toNat = addNat x.toNat y.toNat := UInt64.toNat_add x y

/-! ### Schedules -/

/-- The word that follows sixteen words of a schedule. -/
def nextWord (w : List UInt64) : UInt64 :=
  smallSigma1 (w.getD 14 0) + w.getD 9 0 + smallSigma0 (w.getD 1 0) + w.getD 0 0

/-- The words of a schedule from sixteen of them on, up to `n` new ones. -/
def scheduleFrom : Nat → List UInt64 → List UInt64
  | 0, w => w
  | n + 1, w => w.headD 0 :: scheduleFrom n (w.tail ++ [nextWord w])

theorem toList_foldl_push (n t : Nat) (before w : List UInt64) (hbefore : before.length = t)
    (hw : w ≠ []) : ((List.range' t n).foldl
      (fun w t => w.push (smallSigma1 (w.getD (t + 14) 0) + w.getD (t + 9) 0
        + smallSigma0 (w.getD (t + 1) 0) + w.getD t 0)) (before ++ w).toArray).toList
      = before ++ scheduleFrom n w := by
  induction n generalizing t before w with
  | zero => rfl
  | succ n ih =>
    have hget : ∀ i, (before ++ w).toArray.getD (t + i) 0 = w.getD i 0 := by
      intro i
      rw [Array.getD_eq_getD_getElem?, List.getElem?_toArray, ← hbefore,
        List.getElem?_append_right (Nat.le_add_right _ _), Nat.add_sub_cancel_left,
        List.getD_eq_getElem?_getD]
    obtain ⟨x, xs, rfl⟩ := List.exists_cons_of_ne_nil hw
    have hstep := ih (t + 1) (before ++ [x]) (xs ++ [nextWord (x :: xs)]) (by simp [hbefore])
      (by simp)
    rw [List.range'_succ, List.foldl_cons, hget 14, hget 9, hget 1, show t = t + 0 from rfl, hget 0,
      List.push_toArray]
    simp only [List.append_assoc, List.cons_append, List.nil_append] at hstep ⊢
    exact hstep

theorem toList_schedule {block : Bytes} (h : blockWords block ≠ #[]) :
    (schedule block).toList = scheduleFrom 64 (blockWords block).toList := by
  have hne : (blockWords block).toList ≠ [] := fun hnil => h (Array.toList_eq_nil_iff.1 hnil)
  rw [schedule, List.range_eq_range']
  exact toList_foldl_push 64 0 [] (blockWords block).toList rfl hne

/-! ### Rounds -/

/-- The chaining value as numbers. -/
structure Numbers where
  a : Nat
  b : Nat
  c : Nat
  d : Nat
  e : Nat
  f : Nat
  g : Nat
  h : Nat

/-- The words of the chaining value as numbers. -/
def State.numbers (s : State) : Numbers :=
  ⟨s.a.toNat, s.b.toNat, s.c.toNat, s.d.toNat, s.e.toNat, s.f.toNat, s.g.toNat, s.h.toNat⟩

/-- The chaining values added place by place. -/
def Numbers.add (s t : Numbers) : Numbers :=
  ⟨addNat s.a t.a, addNat s.b t.b, addNat s.c t.c, addNat s.d t.d, addNat s.e t.e, addNat s.f t.f,
    addNat s.g t.g, addNat s.h t.h⟩

/-- The numbers of the chaining value in order. -/
def Numbers.list (s : Numbers) : List Nat := [s.a, s.b, s.c, s.d, s.e, s.f, s.g, s.h]

/-- One round on numbers. -/
def roundNat (s : Numbers) (w k : Nat) : Numbers :=
  let t := addNat (addNat (addNat (addNat s.h (rotrsNat 14 18 41 s.e)) (chooseNat s.e s.f s.g)) k) w
  ⟨addNat (addNat t (rotrsNat 28 34 39 s.a)) (majorityNat s.a s.b s.c), s.a, s.b, s.c, addNat s.d t,
    s.e, s.f, s.g⟩

/-- `nextWord` on numbers. -/
def nextWordNat (w : List Nat) : Nat :=
  addNat (addNat (addNat (rotrsShiftNat 19 61 6 (w.getD 14 0)) (w.getD 9 0))
    (rotrsShiftNat 1 8 7 (w.getD 1 0))) (w.getD 0 0)

/-- The rounds of the given constants, from sixteen words of the schedule on, of which `n` are still
to be made. -/
def roundsNat : Nat → List Nat → List Nat → Numbers → Numbers
  | 0, ks, w, s => (w.zip ks).foldl (fun s p => roundNat s p.1 p.2) s
  | _ + 1, [], _, s => s
  | n + 1, k :: ks, w, s => roundsNat n ks (w.tail ++ [nextWordNat w]) (roundNat s (w.headD 0) k)

theorem numbers_round (s : State) (w k : UInt64) :
    (round s w k).numbers = roundNat s.numbers w.toNat k.toNat := by
  simp only [round, State.numbers, roundNat, toNat_add, toNat_bigSigma0, toNat_bigSigma1,
    toNat_choose, toNat_majority]

theorem numbers_add (s t : State) : (s.add t).numbers = s.numbers.add t.numbers := by
  simp only [State.add, State.numbers, Numbers.add, toNat_add]

theorem toNat_nextWord (w : List UInt64) :
    (nextWord w).toNat = nextWordNat (w.map UInt64.toNat) := by
  have hget : ∀ i, (w.map UInt64.toNat).getD i 0 = (w.getD i 0).toNat := by
    intro i
    simp only [List.getD_eq_getElem?_getD, List.getElem?_map]
    cases w[i]? <;> rfl
  simp only [nextWord, nextWordNat, toNat_add, toNat_smallSigma0, toNat_smallSigma1, hget]

theorem numbers_foldl_round (ps : List (UInt64 × UInt64)) (s : State) :
    (ps.foldl (fun s p => round s p.1 p.2) s).numbers
      = (ps.map fun p => (p.1.toNat, p.2.toNat)).foldl (fun s p => roundNat s p.1 p.2)
          s.numbers := by
  induction ps generalizing s with
  | nil => rfl
  | cons p ps ih => rw [List.foldl_cons, ih, numbers_round, List.map_cons, List.foldl_cons]

theorem numbers_rounds (n : Nat) (ks w : List UInt64) (s : State) :
    (((scheduleFrom n w).zip ks).foldl (fun s p => round s p.1 p.2) s).numbers
      = roundsNat n (ks.map UInt64.toNat) (w.map UInt64.toNat) s.numbers := by
  induction n generalizing ks w s with
  | zero =>
    rw [numbers_foldl_round, scheduleFrom, roundsNat, List.zip_map]
    rfl
  | succ n ih =>
    cases ks with
    | nil =>
      rw [List.zip_nil_right]
      rfl
    | cons k ks =>
      have hhead : (w.map UInt64.toNat).headD 0 = (w.headD 0).toNat := by cases w <;> rfl
      rw [scheduleFrom, List.zip_cons_cons, List.foldl_cons, ih, numbers_round, List.map_append,
        List.map_tail, List.map_cons, List.map_nil, toNat_nextWord, List.map_cons, roundsNat, hhead]

/-! ### Digests -/

/-- The constants as numbers. -/
def roundConstantsNat : List Nat := roundConstants.toList.map UInt64.toNat

/-- A block mixed into the chaining value. -/
def compressNat (s : Numbers) (block : Bytes) : Numbers :=
  s.add (roundsNat 64 roundConstantsNat ((Bytes.chunks 8 block).map Bytes.toNatBE) s)

theorem toNat_blockWords {block : Bytes} (h : block.length = 128) :
    (blockWords block).toList.map UInt64.toNat = (Bytes.chunks 8 block).map Bytes.toNatBE := by
  have hdvd : 8 ∣ block.length := by
    rw [h]
    decide
  have hlength := (Bytes.chunks_of_dvd (by decide) hdvd).1
  rw [blockWords, List.map_map]
  refine List.map_congr_left fun w hw => ?_
  rw [Function.comp_apply, UInt64.toNat_ofNat']
  have hlt := Bytes.toNatLE_lt w.reverse
  rw [List.length_reverse, hlength w hw] at hlt
  exact Nat.mod_eq_of_lt hlt

theorem numbers_compress (s : State) {block : Bytes} (h : block.length = 128) :
    (compress s block).numbers = compressNat s.numbers block := by
  have hne : blockWords block ≠ #[] := by
    intro hnil
    have hwords := toNat_blockWords h
    rw [hnil, ← List.take_append_drop 8 block, Bytes.chunks_append (by decide) (by simp [h])]
      at hwords
    cases hwords
  rw [compress, numbers_add, ← Array.foldl_toList, Array.toList_zip, toList_schedule hne,
    numbers_rounds, toNat_blockWords h]
  rfl

/-- The digest of a message, computed on numbers. -/
def digestNat (m : Bytes) : Bytes :=
  ((Bytes.chunks 128 (pad m)).foldl compressNat State.initial.numbers).list.flatMap
    (Bytes.ofNatBE 8)

theorem dvd_length_pad (m : Bytes) : 128 ∣ (pad m).length := by
  rw [pad, List.length_append, List.length_append, List.length_cons, List.length_replicate,
    Bytes.length_ofNatBE]
  omega

theorem digest_eq (m : Bytes) : digest m = digestNat m := by
  have hfold : ∀ (blocks : List Bytes) (s : State), (∀ b ∈ blocks, b.length = 128) →
      (blocks.foldl compress s).numbers = blocks.foldl compressNat s.numbers := by
    intro blocks
    induction blocks with
    | nil => exact fun _ _ => rfl
    | cons b blocks ih =>
      intro s hblocks
      rw [List.foldl_cons, List.foldl_cons, ih _ fun c hc => hblocks c (List.mem_cons_of_mem b hc),
        numbers_compress s (hblocks b List.mem_cons_self)]
  rw [digestNat, ← hfold _ _ (Bytes.chunks_of_dvd (by decide) (dvd_length_pad m)).1]
  rfl

example : (digest [97, 98, 99]).take 8 = [0xdd, 0xaf, 0x35, 0xa1, 0x93, 0x61, 0x7a, 0xba] := by
  rw [digest_eq]
  decide +kernel

end SealedLogin.Sha512
