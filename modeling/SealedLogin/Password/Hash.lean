import SealedLogin.Bytes.Base64

/-!
# Password hashes in text

The PHC string format: fields behind dollar signs, which name an algorithm and give its version, its
parameters, the salt and the hash, all but the first of which may be missing from the end.
`PasswordHash.parse?` accepts the strings of this form, whatever the algorithm is.
-/

namespace SealedLogin

/-- A password hash as it is stored. -/
structure PasswordHash where
  algorithm : String
  version : Option Nat
  /-- Names and values in their order; a name may be there more than once. -/
  params : List (String × String)
  salt : Option String
  hash : Option Bytes
deriving DecidableEq, Repr, Inhabited

namespace PasswordHash

/-! ### Characters -/

/-- Whether a character may stand in the name of an algorithm or a parameter. -/
def isNameChar (c : Char) : Bool := ('a' ≤ c && c ≤ 'z') || c.isDigit || c == '-'

/-- Whether a character may stand in a value or a salt. -/
def isValueChar (c : Char) : Bool :=
  c.isAlphanum || c == '/' || c == '+' || c == '.' || c == '-'

/-- Whether a text is a name. -/
def isName (s : List Char) : Bool := 1 ≤ s.length && s.length ≤ 32 && s.all isNameChar

/-- Whether a text is a value. -/
def isValue (s : List Char) : Bool := s.length ≤ 64 && s.all isValueChar

/-- Whether a text is a salt. -/
def isSalt (s : List Char) : Bool := 4 ≤ s.length && isValue s

/-- The pieces of a text between separators. -/
def split (separator : Char) (s : List Char) : List (List Char) :=
  s.foldr
    (fun c pieces =>
      match c == separator, pieces with
      | true, pieces => [] :: pieces
      | false, piece :: pieces => (c :: piece) :: pieces
      | false, [] => [[c]])
    [[]]

/-! ### Fields -/

/-- The number of 32 bits that a value spells in decimal, without leading zeros. -/
def decimal? (s : List Char) : Option Nat :=
  if s.isEmpty || !s.all Char.isDigit || (1 < s.length && s.head? == some '0') then none
  else
    let n := s.foldl (fun n c => n * 10 + (c.toNat - 48)) 0
    if n < Nat.pow 2 32 then some n else none

/-- A parameter, its name and its value around an equals sign. -/
def param? (s : List Char) : Option (String × String) :=
  match split '=' s with
  | [name, value] =>
      if isName name && isValue value then some (String.ofList name, String.ofList value) else none
  | _ => none

/-- Parameters separated by commas. -/
def params? (s : List Char) : Option (List (String × String)) :=
  if 127 < s.length then none else (split ',' s).mapM param?

/-- A hash of at least ten and at most 64 bytes. -/
def hash? (s : List Char) : Option Bytes :=
  (Base64.decode? (String.ofList s)).filter fun b => 10 ≤ b.length && b.length ≤ 64

/-- Salt and hash from the last fields. -/
def parseTail (found : PasswordHash) : List (List Char) → Option PasswordHash
  | [] => some found
  | [salt] => if isSalt salt then some { found with salt := some (String.ofList salt) } else none
  | [salt, hash] =>
      if isSalt salt then
        (hash? hash).map fun b => { found with salt := some (String.ofList salt), hash := some b }
      else none
  | _ => none

/-- What follows the version. A field with an equals sign in it holds parameters. -/
def parseParams (found : PasswordHash) : List (List Char) → Option PasswordHash
  | [] => some found
  | field :: rest =>
      if field.contains '=' then do parseTail { found with params := ← params? field } rest
      else parseTail found (field :: rest)

/-- What follows the algorithm. A field that begins like a version and has no comma in it holds the
version. -/
def parseVersion (found : PasswordHash) : List (List Char) → Option PasswordHash
  | [] => some found
  | field :: rest =>
      match field with
      | 'v' :: '=' :: digits =>
          if field.contains ',' then parseParams found (field :: rest)
          else do parseParams { found with version := some (← decimal? digits) } rest
      | _ => parseParams found (field :: rest)

/-- The password hash that a text spells. -/
def parse? (text : String) : Option PasswordHash :=
  match split '$' text.toList with
  | [] :: algorithm :: fields =>
      if isName algorithm then parseVersion ⟨String.ofList algorithm, none, [], none, none⟩ fields
      else none
  | _ => none

end PasswordHash

end SealedLogin
