import SealedLogin.Bytes.Utf8
import SealedLogin.Hash.Argon2
import SealedLogin.Password.Hash

/-!
# Checking passwords

A stored hash is checked by hashing the password again with the stored parameters. A hash that
cannot be made again, because something is missing or not supported, fits no password.
-/

namespace SealedLogin.PasswordHash

/-- The costs where the stored hash names none. -/
def standardParams (variant : Argon2.Variant) (version : Argon2.Version) (length : Nat) :
    Argon2.Params :=
  { variant, version, memory := 19456, passes := 2, lanes := 1, length, data := [] }

/-- The variant of an algorithm's name. -/
def variant? : String → Option Argon2.Variant
  | "argon2d" => some .dependent
  | "argon2i" => some .independent
  | "argon2id" => some .hybrid
  | _ => none

/-- The version of a number; the newer one if there is none. -/
def version? : Option Nat → Option Argon2.Version
  | none => some .combining
  | some 16 => some .overwriting
  | some 19 => some .combining
  | some _ => none

/-- At most `limit` bytes in Base64. -/
def buffer? (limit : Nat) (value : String) : Option Bytes :=
  (Base64.decode? value).filter fun b => b.length ≤ limit

/-- The parameters with one more of the stored ones. The name of a key is checked and not used. -/
def applyParam (p : Argon2.Params) (param : String × String) : Option Argon2.Params :=
  let decimal := decimal? param.2.toList
  match param.1 with
  | "m" => decimal.map fun n => { p with memory := n }
  | "t" => decimal.map fun n => { p with passes := n }
  | "p" => decimal.map fun n => { p with lanes := n }
  | "keyid" => (buffer? 8 param.2).map fun _ => p
  | "data" => (buffer? 32 param.2).map fun b => { p with data := b }
  | _ => none

/-- Whether a hash can be made at these costs. -/
def areFeasible (p : Argon2.Params) : Bool :=
  8 ≤ p.memory && 8 * p.lanes ≤ p.memory && 1 ≤ p.passes && 1 ≤ p.lanes && p.lanes < Nat.pow 2 24

def argon2Params? (h : PasswordHash) (length : Nat) : Option Argon2.Params := do
  let variant ← variant? h.algorithm
  let version ← version? h.version
  let p ← h.params.foldlM applyParam (standardParams variant version length)
  if areFeasible p then some p else none

/-- The salt, of at least eight bytes. -/
def saltBytes? (salt : String) : Option Bytes :=
  (Base64.decode? salt).filter fun b => 8 ≤ b.length

def verify (h : PasswordHash) (password : String) : Bool :=
  match h.salt.bind saltBytes?, h.hash with
  | some salt, some expected =>
      match h.argon2Params? expected.length with
      | some p => Bytes.equal (Argon2.hash p (Utf8.encode password) salt) expected
      | none => false
  | _, _ => false

end SealedLogin.PasswordHash
