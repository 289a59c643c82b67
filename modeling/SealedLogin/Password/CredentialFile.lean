import SealedLogin.JsonText.Fields
import SealedLogin.Login.Credentials
import SealedLogin.Password.Verify

/-!
# Credential files

A JSON array of users, each with a login id, a password hash, and the organization that the user is
bound to, if any. `CredentialFile.parse` accepts a file if every hash has the form of one and no
login id occurs twice; `CredentialFile.authenticate` decides about login attempts.
-/

namespace SealedLogin

open JsonText

/-- A user in a credential file. -/
structure UserEntry where
  loginId : String
  /-- The text of a password hash. -/
  passwordHash : String
  organization : Option String
deriving DecidableEq, Repr, Inhabited

namespace UserEntry

/-- The fields of a user; only the organization may be left out. -/
def shape : Shape :=
  [⟨"login_id", .text, true⟩, ⟨"password_hash", .text, true⟩,
    ⟨"organization_uid", .optionalText, false⟩]

def ofFields (fs : Fields) : UserEntry :=
  ⟨fs.text "login_id", fs.text "password_hash", fs.optionalText "organization_uid"⟩

end UserEntry

/-- The users who may log in; no login id occurs twice. -/
structure CredentialFile where
  entries : List UserEntry
deriving DecidableEq, Repr, Inhabited

namespace CredentialFile

/-- Why a file was not accepted. -/
inductive Fault where
  /-- The file is not text. -/
  | unreadable
  | json (fault : JsonText.Fault)
  /-- The password hash of a user is none. -/
  | badHash (loginId : String)
  /-- A login id occurs a second time. -/
  | duplicate (loginId : String)
deriving DecidableEq, Repr

def Fault.message : Fault → String
  | .unreadable => "the file is not valid UTF-8"
  | .json .endOfText => "the JSON text ends too soon"
  | .json .malformed => "the file is not JSON"
  | .json .mismatch => "the file does not list users"
  | .badHash loginId => "password hash for " ++ Text.quote loginId ++ " is not a PHC string"
  | .duplicate loginId => "duplicate login id " ++ Text.quote loginId

/-- The file without users. -/
def empty : CredentialFile := ⟨[]⟩

/-- The number of users. -/
def size (file : CredentialFile) : Nat := file.entries.length

def lookup (file : CredentialFile) (loginId : String) : Option UserEntry :=
  file.entries.find? (·.loginId == loginId)

/-- The file with one more user. -/
def insert (file : CredentialFile) (e : UserEntry) : Except Fault CredentialFile :=
  if (PasswordHash.parse? e.passwordHash).isNone then .error (.badHash e.loginId)
  else if (file.lookup e.loginId).isSome then .error (.duplicate e.loginId)
  else .ok ⟨file.entries ++ [e]⟩

/-- The file of some users. The first user that cannot be added decides. -/
def ofEntries (entries : List UserEntry) : Except Fault CredentialFile :=
  entries.foldlM insert empty

/-- The file that a text spells. The whole text is read before the users are looked at. -/
def parse (text : String) : Except Fault CredentialFile :=
  match JsonText.readList UserEntry.shape text with
  | .ok fields => ofEntries (fields.map UserEntry.ofFields)
  | .error fault => .error (.json fault)

def load (content : Bytes) : Except Fault CredentialFile :=
  match Utf8.decode content with
  | .ok text => parse text
  | .error _ => .error .unreadable

/-- A stored password hash; it was checked when the file was accepted. -/
def storedHash (text : String) : Except ProtocolError PasswordHash :=
  match PasswordHash.parse? text with
  | some h => .ok h
  | none => .error (.store "stored password hash unreadable")

/-- What stands in for the hash of a user who does not exist, at the standard costs. No password
fits it. -/
def decoyHash : String :=
  "$argon2id$v=19$m=19456,t=2,p=1$ZmllbGRsaW5rLWRlY295IQ$AAECAwQFBgcICQoLDA0ODxAREhMUFRYXGBkaGxwdHh8"

/-- Whether a user of a bound organization may log into the one that is asked for. -/
def admits (bound requested : Option String) : Bool :=
  match bound, requested with
  | some b, some r => b == r
  | _, _ => true

/-- Decides about an attempt: the login id must be known, the password right, and the organization,
if the user is bound to one and another is asked for, the same. -/
def authenticate (file : CredentialFile) : Authenticator := fun attempt => do
  match file.lookup attempt.loginId with
  | none =>
      let _ ← storedHash decoyHash
      .ok none
  | some e =>
      let h ← storedHash e.passwordHash
      if h.verify attempt.password && admits e.organization attempt.organization then
        .ok (some ⟨e.loginId, attempt.organization.or e.organization⟩)
      else .ok none

end CredentialFile

end SealedLogin
