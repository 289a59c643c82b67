import SealedLogin.ProtocolError
import SealedLogin.Record
import SealedLogin.Text.Outline

/-!
# Credentials

What a user types in (`Credentials`), the payloads it is sent as, and what the server reads from
them (`LoginAttempt`). An authenticator answers an attempt with a user, with none, or with a
failure.
-/

namespace SealedLogin

/-- What a user logs in with. -/
structure Credentials where
  loginId : String
  password : String
  organization : Option String
deriving DecidableEq, Repr, Inhabited

/-- Credentials as the server received them. -/
structure LoginAttempt where
  loginId : String
  password : String
  organization : Option String
deriving DecidableEq, Repr, Inhabited

/-- A user who has logged in. -/
structure AuthenticatedUser where
  userId : String
  organization : Option String
deriving DecidableEq, Repr, Inhabited

/-- Decides about login attempts: a user, none if the credentials are wrong, or a failure. -/
abbrev Authenticator := LoginAttempt → Except ProtocolError (Option AuthenticatedUser)

namespace Credentials

/-- The payloads of a login: login id, password, and the organization if there is one. -/
def payloads (c : Credentials) : List Record :=
  [Record.ofString c.loginId, Record.ofString c.password]
    ++ c.organization.toList.map Record.ofString

/-- Credentials show all but the password. -/
def shown (c : Credentials) : String :=
  Text.outline "Credentials"
    [("login_id", Text.quote c.loginId),
      ("organization_uid", Text.outlineOption (c.organization.map Text.quote))] true

end Credentials

namespace LoginAttempt

def payloadText (r : Record) : Except ProtocolError String := ProtocolError.ofRead r.text

/-- The text of a payload that may be missing or empty. -/
def optionalPayloadText (r : Option Record) : Except ProtocolError (Option String) :=
  match r with
  | none => .ok none
  | some r => (payloadText r).map fun s => if s.isEmpty then none else some s

/-- The attempt that the payloads of a login make. A list too short and an empty login id count as
wrong credentials; payloads after the third are ignored. -/
def ofPayloads : List Record → Except ProtocolError LoginAttempt
  | loginId :: password :: rest => do
      let loginId ← payloadText loginId
      let password ← payloadText password
      let organization ← optionalPayloadText rest.head?
      if loginId.isEmpty then .error .invalidCredential
      else .ok ⟨loginId, password, organization⟩
  | _ => .error .invalidCredential

/-- An attempt shows all but the password. -/
def shown (a : LoginAttempt) : String :=
  Text.outline "LoginAttempt"
    [("login_id", Text.quote a.loginId),
      ("organization_uid", Text.outlineOption (a.organization.map Text.quote))] true

end LoginAttempt

/-- A user in full. -/
def AuthenticatedUser.shown (u : AuthenticatedUser) : String :=
  Text.outline "AuthenticatedUser"
    [("user_id", Text.quote u.userId),
      ("organization_uid", Text.outlineOption (u.organization.map Text.quote))] false

end SealedLogin
