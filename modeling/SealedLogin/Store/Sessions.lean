import SealedLogin.Login.Credentials
import SealedLogin.Store.Expiring
import SealedLogin.Time.Stamp

/-!
# The store of sessions

Sessions under their tokens. Using a session renews it; an expired session is absent and is not
brought back by use.
-/

namespace SealedLogin

/-- A session that the server has issued a token for. -/
structure SessionRecord where
  token : String
  user : AuthenticatedUser
  issuedAt : Instant
deriving DecidableEq, Repr, Inhabited

/-- A session shows all but its token. -/
def SessionRecord.shown (r : SessionRecord) : String :=
  Text.outline "SessionRecord"
    [("user", r.user.shown), ("issued_at", Stamp.printFull r.issuedAt "Z")] true

/-- Session records under their tokens. -/
abbrev SessionStore := ExpiringTable SessionRecord

namespace SessionStore

/-- The store with a record under its own token for a length of time from now on. -/
def put (s : SessionStore) (r : SessionRecord) (now : Tick) (ttl : Duration) : SessionStore :=
  s.insert r.token (.start r now ttl)

/-- The live session under a token. -/
def get (s : SessionStore) (token : String) (now : Tick) : Option SessionRecord := s.live? token now

/-- The live session under a token, which gets a length of time from now on. -/
def touch (s : SessionStore) (token : String) (now : Tick) (ttl : Duration) :
    Option SessionRecord × SessionStore :=
  match (s.lookup token).filter (·.isLive now) with
  | none => (none, s)
  | some e => (some e.value, s.insert token (e.renew now ttl))

/-- Whether a live session was under a token, and the store without the entry there. -/
def invalidate (s : SessionStore) (token : String) (now : Tick) : Bool × SessionStore :=
  ((s.get token now).isSome, s.erase token)

end SessionStore

end SealedLogin
