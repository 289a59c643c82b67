import SealedLogin.Keys.Session
import SealedLogin.Store.Expiring

/-!
# The store of pre-keys

What the server keeps between the two rounds of a login, under the index it has handed out. A record
is used once: taking it removes it, whether it is still live or not.
-/

namespace SealedLogin

/-- What the server keeps for the second round. -/
structure PreKeyRecord where
  index : String
  /-- The key that the client signs its login with. -/
  clientSigningKey : VerifyingKey
  /-- The identity that the server signs its reply with. -/
  serverSigning : SigningIdentity
  keys : DirectionalKeys
deriving DecidableEq, Inhabited

/-- Pre-key records under their indices. -/
abbrev PreKeyStore := ExpiringTable PreKeyRecord

namespace PreKeyStore

/-- The store with a record under its own index for a length of time from now on. -/
def put (s : PreKeyStore) (r : PreKeyRecord) (now : Tick) (ttl : Duration) : PreKeyStore :=
  s.insert r.index (.start r now ttl)

/-- The live record under an index, and the store without the entry there. -/
def take (s : PreKeyStore) (index : String) (now : Tick) : Option PreKeyRecord × PreKeyStore :=
  (s.live? index now, s.erase index)

end PreKeyStore

end SealedLogin
