/-!
# Request targets

What a request is for: a path on this server, a resource by its whole address, the server itself, or
an authority alone. `Target.ofText` tells the forms apart, and `Target.path` is the path that is
asked for. A query and a fragment are no part of a target here, and the characters of a target are
not checked.
-/

namespace SealedLogin.Http

/-- What a request is for. -/
inductive Target where
  /-- A path, which begins with a slash. -/
  | resource (path : String)
  /-- A path behind a scheme and an authority. -/
  | absolute (scheme authority path : String)
  /-- The server and no path on it. -/
  | server
  /-- A host, with or without a port, and no path on it. -/
  | host (authority : String)
deriving DecidableEq, Repr

namespace Target

/-- Whether a character ends a path, because a query or a fragment begins with it. -/
def endsPath (c : Char) : Bool := c == '?' || c == '#'

def endsAuthority (c : Char) : Bool := c == '/' || endsPath c

/-- The text up to its first query or fragment. -/
def dropQuery (s : List Char) : String := String.ofList (s.takeWhile fun c => !endsPath c)

/-- The path behind an authority; an empty one means the root. -/
def pathOrRoot (s : List Char) : String :=
  let path := dropQuery s
  if path.isEmpty then "/" else path

/-- The target of a text that is no asterisk and begins with no slash: an address if its first
colon stands before two slashes, and an authority otherwise. -/
def ofAddress (s : List Char) : Target :=
  let (scheme, rest) := s.span (· != ':')
  match rest with
  | ':' :: '/' :: '/' :: rest =>
      let (authority, rest) := rest.span fun c => !endsAuthority c
      .absolute (String.ofList scheme) (String.ofList authority) (pathOrRoot rest)
  | _ => .host (String.ofList s)

/-- The target that a text spells. -/
def ofText (text : String) : Target :=
  match text.toList with
  | ['*'] => .server
  | '/' :: rest => .resource (dropQuery ('/' :: rest))
  | s => ofAddress s

/-- The path that is asked for; empty where a target has none. -/
def path : Target → String
  | .resource path => path
  | .absolute _ _ path => path
  | .server => "*"
  | .host _ => ""

end Target

end SealedLogin.Http
