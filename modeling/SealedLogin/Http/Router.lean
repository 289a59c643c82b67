import SealedLogin.Http.Message
import SealedLogin.Login.Server

/-!
# The endpoints

`route` answers a request: it finds the endpoint of the path, checks the method, reads what the
endpoint needs from the body or the headers, and calls the server. A request in another form never
reaches the server.
-/

namespace SealedLogin.Http

/-- The endpoints. -/
inductive Endpoint where
  | preKey
  | login
  | logout
  | detail
  | health
deriving DecidableEq, Repr

namespace Endpoint

/-- Every endpoint. -/
def all : List Endpoint := [.preKey, .login, .logout, .detail, .health]

/-- Where an endpoint is. -/
def path : Endpoint → String
  | .preKey => "/self/prekey"
  | .login => "/self/login"
  | .logout => "/self/logout"
  | .detail => "/self/detail"
  | .health => "/health"

/-- The endpoint at a path. -/
def ofPath? (path : String) : Option Endpoint := all.find? (·.path == path)

/-- Whether an endpoint answers a method. -/
def allows : Endpoint → String → Bool
  | .health, method => method == "GET" || method == "HEAD"
  | _, method => method == "POST"

end Endpoint

/-- The answer to a request, which may draw random bytes and change what the server keeps. -/
abbrev Handler := StateT ServerState (StateM Entropy) Response

/-- The largest body in bytes that is read. -/
def bodyLimit : Nat := 2 * 1024 * 1024

/-- A message from the body of a request, or the refusal of the body: its media type is checked
first, then its size, then its text. -/
def readBody {α : Type} (read : String → Except JsonText.Fault α) (r : Request) :
    Except Response α :=
  if !(r.mediaType?.any MediaType.isJson) then .error (.bare 415)
  else if bodyLimit < r.body.utf8ByteSize then .error (.bare 413)
  else
    match read r.body with
    | .ok a => .ok a
    | .error .mismatch => .error (.bare 422)
    | .error _ => .error (.bare 400)

/-- A call to the server and the response to what comes of it. -/
def respond {α : Type} (call : ServerStep α) (success : α → Body) : Handler := do
  match ← call.run with
  | .ok a => return .ok (success a)
  | .error e => return .ofError e

/-- A call with the message in the body of a request. -/
def withBody {α : Type} (read : String → Except JsonText.Fault α) (r : Request)
    (call : α → Handler) : Handler :=
  match readBody read r with
  | .ok a => call a
  | .error refusal => return refusal

/-- A call with the token that a request presents. -/
def withToken (r : Request) (call : String → Handler) : Handler :=
  match r.bearerToken? with
  | some token => call token
  | none => return .ofError (.missingParameter "authorization")

/-- A session as its owner is told about it. -/
def detailFields (s : SessionRecord) : JsonText.Fields :=
  [("user_id", .text s.user.userId),
    ("organization_uid", s.user.organization.elim .null .text),
    ("issued_at", .text (Stamp.printFull s.issuedAt "+00:00"))]

/-- What an endpoint answers. The identifier is for a pre-key, should one be issued. -/
def Endpoint.handle (server : LoginServer) (now : Moment) (identifier : String) (r : Request) :
    Endpoint → Handler
  | .preKey =>
      withBody PreKeyRequest.ofJson r fun message =>
        respond (server.issuePreKey now.tick identifier message) fun m => .object m.fields
  | .login =>
      withBody LoginRequest.ofJson r fun message =>
        respond (server.login now message) fun m => .object m.fields
  | .logout =>
      withToken r fun token => respond (LoginServer.logout now.tick token) fun _ => .object []
  | .detail =>
      withToken r fun token =>
        respond (server.resolve now.tick token) fun s => .object (detailFields s)
  | .health => return .ok (if r.method == "HEAD" then .empty else .text "ok")

/-- The answer to a request. Asking for the options of a path succeeds whatever the path is. -/
def route (server : LoginServer) (now : Moment) (identifier : String) (r : Request) : Handler :=
  if r.method == "OPTIONS" then return .ok .empty
  else
    match Endpoint.ofPath? r.path with
    | none => return .bare 404
    | some endpoint =>
        if endpoint.allows r.method then endpoint.handle server now identifier r
        else return .bare 405

end SealedLogin.Http
