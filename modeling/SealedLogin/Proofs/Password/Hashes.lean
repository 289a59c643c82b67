import SealedLogin.Password.Verify
import SealedLogin.Proofs.Coding.Base64
import SealedLogin.Proofs.Coding.Equality

/-!
# Password hashes in text

The fields of a stored hash are what stands between its dollar signs (`split_append`). A hash that
is made of a password (`PasswordHash.make`) is read again, and the password fits it
(`verify_make`).
-/

namespace SealedLogin

/-! ### Lengths -/

theorem Blake2b.length_digest (length : Nat) (m : Bytes) :
    (Blake2b.digest length m).length = min length 64 := by
  unfold Blake2b.digest
  simp [List.length_flatMap, List.map_const']

theorem Argon2.length_hash (p : Argon2.Params) (password salt : Bytes) (h : p.length ≤ 64) :
    (Argon2.hash p password salt).length = p.length := by
  unfold Argon2.hash Argon2.longDigest
  rw [if_pos h, Blake2b.length_digest, Nat.min_eq_left h]

namespace PasswordHash

/-! ### Fields -/

theorem split_of_not_mem {separator : Char} {s : List Char} (h : separator ∉ s) :
    split separator s = [s] := by
  induction s with
  | nil => rfl
  | cons c s ih =>
    have hc : (c == separator) = false := beq_false_of_ne fun heq => h (heq ▸ List.mem_cons_self)
    rw [split, List.foldr_cons, ← split, ih fun hs => h (.tail _ hs), hc]

theorem split_append {separator : Char} {s : List Char} (h : separator ∉ s) (rest : List Char) :
    split separator (s ++ separator :: rest) = s :: split separator rest := by
  induction s with
  | nil =>
    rw [List.nil_append, split, List.foldr_cons, ← split, beq_self_eq_true]
  | cons c s ih =>
    have hc : (c == separator) = false := beq_false_of_ne fun heq => h (heq ▸ List.mem_cons_self)
    rw [List.cons_append, split, List.foldr_cons, ← split, ih fun hs => h (.tail _ hs), hc]

/-! ### Making a hash -/

/-- The least costs. -/
def leastParams : Argon2.Params := ⟨.hybrid, .combining, 8, 1, 1, 32, []⟩

/-- The hash of a password with a salt at the least costs. -/
def makeBytes (password salt : Bytes) : Bytes := Argon2.hash leastParams password salt

/-- The text of the hash of a password, with a salt that is written in Base64. -/
def make (password salt : Bytes) : String :=
  "$argon2id$v=19$m=8,t=1,p=1$" ++ Base64.encode salt ++ "$"
    ++ Base64.encode (makeBytes password salt)

theorem not_mem_encode {c : Char} (h : c ∉ Base64.alphabet) (b : Bytes) :
    c ∉ (Base64.encode b).toList :=
  fun hmem => h (Base64.mem_alphabet_of_mem_encode hmem)

theorem split_text {salt hash : String} (hsalt : '$' ∉ salt.toList) (hhash : '$' ∉ hash.toList) :
    split '$' ("$argon2id$v=19$m=8,t=1,p=1$" ++ salt ++ "$" ++ hash).toList =
      [[], "argon2id".toList, ['v', '=', '1', '9'], "m=8,t=1,p=1".toList, salt.toList,
        hash.toList] := by
  have htext : ("$argon2id$v=19$m=8,t=1,p=1$" ++ salt ++ "$" ++ hash).toList
      = [] ++ '$' :: ("argon2id".toList ++ '$' :: (['v', '=', '1', '9']
        ++ '$' :: ("m=8,t=1,p=1".toList ++ '$' :: (salt.toList ++ '$' :: hash.toList)))) := by
    simp [String.toList_append]
  rw [htext, split_append (by decide), split_append (by decide), split_append (by decide),
    split_append (by decide), split_append hsalt, split_of_not_mem hhash]

theorem split_make (password salt : Bytes) : split '$' (make password salt).toList =
    [[], "argon2id".toList, ['v', '=', '1', '9'], "m=8,t=1,p=1".toList, (Base64.encode salt).toList,
      (Base64.encode (makeBytes password salt)).toList] :=
  split_text (not_mem_encode (by decide) _) (not_mem_encode (by decide) _)

/-- The hash that the text of a made hash spells. -/
def made (password salt : Bytes) : PasswordHash :=
  ⟨"argon2id", some 19, [("m", "8"), ("t", "1"), ("p", "1")], some (Base64.encode salt),
    some (makeBytes password salt)⟩

theorem parseTail_make {password salt : Bytes} (found : PasswordHash)
    (hsalt : isSalt (Base64.encode salt).toList = true) :
    parseTail found [(Base64.encode salt).toList, (Base64.encode (makeBytes password salt)).toList]
      = some { found with
        salt := some (Base64.encode salt)
        hash := some (makeBytes password salt) } := by
  have hlength : (makeBytes password salt).length = 32 := Argon2.length_hash _ _ _ (by decide)
  have hhash : hash? (Base64.encode (makeBytes password salt)).toList
      = some (makeBytes password salt) := by
    rw [hash?, String.ofList_toList, Base64.decode?_encode, Option.filter_some, hlength]
    rfl
  rw [parseTail, if_pos hsalt, hhash, String.ofList_toList, Option.map_some]

theorem parse?_make {password salt : Bytes} (hsalt : isSalt (Base64.encode salt).toList = true) :
    parse? (make password salt) = some (made password salt) := by
  have hname : isName "argon2id".toList = true := by decide
  have hcomma : ['v', '=', '1', '9'].contains ',' = false := by decide
  have hversion : decimal? ['1', '9'] = some 19 := by decide +kernel
  have hequals : "m=8,t=1,p=1".toList.contains '=' = true := by decide
  have hparams : params? "m=8,t=1,p=1".toList = some [("m", "8"), ("t", "1"), ("p", "1")] := by
    decide +kernel
  rw [parse?, split_make]
  dsimp only
  rw [if_pos hname, parseVersion]
  dsimp only
  rw [hcomma, hversion, if_neg Bool.false_ne_true, Option.bind_eq_bind, Option.bind_some,
    parseParams, if_pos hequals, hparams, Option.bind_eq_bind, Option.bind_some,
    parseTail_make _ hsalt, String.ofList_toList]
  rfl

/-- The password of which a hash was made fits it. -/
theorem verify_made {salt : Bytes} (password : String) (h : 8 ≤ salt.length) :
    (made (Utf8.encode password) salt).verify password = true := by
  have hlength : (makeBytes (Utf8.encode password) salt).length = 32 :=
    Argon2.length_hash _ _ _ (by decide)
  have hsalt : (made (Utf8.encode password) salt).salt.bind saltBytes? = some salt := by
    show saltBytes? (Base64.encode salt) = some salt
    rw [saltBytes?, Base64.decode?_encode, Option.filter_some, if_pos (decide_eq_true h)]
  have hhash : (made (Utf8.encode password) salt).hash
      = some (makeBytes (Utf8.encode password) salt) := rfl
  have hparams : (made (Utf8.encode password) salt).argon2Params? 32 = some leastParams := rfl
  unfold verify
  rw [hsalt, hhash]
  dsimp only
  rw [hlength, hparams]
  exact Bytes.equal_iff.2 rfl

end PasswordHash

end SealedLogin
