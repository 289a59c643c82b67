import SealedLogin.JsonText.Fields
import SealedLogin.Http.MediaType
import SealedLogin.Http.Target
import SealedLogin.ProtocolError

/-!
# Requests and responses

What the endpoints need of a request, and what they answer. A response to a failed call tells its
cause only where the caller left something out; all that went wrong because of what the caller sent
looks the same (`Response.ofError`).
-/

namespace SealedLogin.Http

/-- A request. -/
structure Request where
  method : String
  /-- What the request is for, in one of the forms of a target. -/
  target : String
  /-- Names and values in the order in which they were sent. -/
  headers : List (String × String)
  body : String
deriving DecidableEq, Repr, Inhabited

namespace Request

/-- The path that is asked for. -/
def path (r : Request) : String := (Target.ofText r.target).path

/-- Whether the value of a header can be used as text. -/
def isPlain (value : String) : Bool :=
  value.toList.all fun c => (' ' ≤ c && c < '\x7f') || c == '\t'

/-- The text of the first header of a name, given in lower case. -/
def header? (r : Request) (name : String) : Option String :=
  let first := r.headers.find? fun h => String.ofList (h.1.toList.map Char.toLower) == name
  (first.map (·.2)).filter isPlain

/-- The media type of the body. -/
def mediaType? (r : Request) : Option MediaType := (r.header? "content-type").bind MediaType.parse?

/-- The word in front of a token, with the blank behind it. -/
def bearerHead : List Char := "Bearer ".toList

/-- Whether a character is a blank in a header. -/
def isBlank (c : Char) : Bool := c == ' ' || c == '\t'

/-- The text without the blanks at its ends. -/
def trim (s : List Char) : List Char := ((s.dropWhile isBlank).reverse.dropWhile isBlank).reverse

/-- The token that the request presents. -/
def bearerToken? (r : Request) : Option String :=
  match r.header? "authorization" with
  | none => none
  | some value =>
      if bearerHead.isPrefixOf value.toList then
        let token := trim (value.toList.drop bearerHead.length)
        if token.isEmpty then none else some (String.ofList token)
      else none

end Request

/-- The body of a response. -/
inductive Body where
  | empty
  | text (s : String)
  /-- A JSON object. -/
  | object (fields : JsonText.Fields)
deriving DecidableEq, Repr

/-- A response. -/
structure Response where
  status : Nat
  body : Body
deriving DecidableEq, Repr

namespace Response

/-- The response to a successful call. -/
def ok (body : Body) : Response := ⟨200, body⟩

/-- A refusal that says no more than its status. -/
def bare (status : Nat) : Response := ⟨status, .empty⟩

/-- The response to a failure of the server. -/
def internalError : Response := ⟨500, .object [("error", .text "INTERNAL_ERROR")]⟩

/-- The response to a failed call. -/
def ofError : ProtocolError → Response
  | .missingParameter name =>
      ⟨400, .object [("error", .text "MISSING_PARAMETER"), ("parameter", .text name)]⟩
  | error =>
      if error.isAuthenticationFailure then
        ⟨401, .object [("error", .text "AUTHENTICATION_FAILED")]⟩
      else internalError

end Response

end SealedLogin.Http
