import SealedLogin.Time.Instant

/-!
# Tables of entries that expire

A table keeps values under keys, each with the tick of the monotonic clock from which on it counts
as absent. Entries leave the table when they are taken, replaced or purged, not by expiring. An
expiry that the clock cannot reach never comes.
-/

namespace SealedLogin

/-- A reading of the monotonic clock, in nanoseconds. -/
abbrev Tick := Int

namespace Tick

/-- The seconds that the clock can count to are below this number. -/
def secondLimit : Int := Nat.pow 2 63

/-- The tick a length of time later, unless the clock cannot reach it. -/
def later? (t : Tick) (d : Duration) : Option Tick :=
  let e := t + d
  if e / Duration.nanosPerSecond < secondLimit then some e else none

end Tick

/-- A value and the tick from which on it is absent. -/
structure Expiring (α : Type) where
  value : α
  /-- None for a value that stays. -/
  expiresAt : Option Tick
deriving Repr, DecidableEq

namespace Expiring

variable {α : Type}

/-- A value for a length of time from now on. -/
def start (value : α) (now : Tick) (ttl : Duration) : Expiring α := ⟨value, now.later? ttl⟩

/-- The value for a length of time from now on, whatever it had left. -/
def renew (e : Expiring α) (now : Tick) (ttl : Duration) : Expiring α :=
  { e with expiresAt := now.later? ttl }

/-- Whether the value is still there. -/
def isLive (e : Expiring α) (now : Tick) : Bool :=
  match e.expiresAt with
  | some t => now < t
  | none => true

end Expiring

/-- Expiring values under keys; no key occurs twice. -/
structure ExpiringTable (α : Type) where
  entries : List (String × Expiring α)
deriving Repr

namespace ExpiringTable

variable {α : Type}

/-- The table without entries. -/
def empty : ExpiringTable α := ⟨[]⟩

instance : Inhabited (ExpiringTable α) := ⟨empty⟩

/-- The number of entries, expired ones included. -/
def size (t : ExpiringTable α) : Nat := t.entries.length

/-- The entry under a key, expired or not. -/
def lookup (t : ExpiringTable α) (key : String) : Option (Expiring α) := t.entries.lookup key

/-- The table without the entry under a key. -/
def erase (t : ExpiringTable α) (key : String) : ExpiringTable α :=
  ⟨t.entries.filter fun e => e.1 != key⟩

/-- The table with an entry under a key, which replaces the one that was there. -/
def insert (t : ExpiringTable α) (key : String) (e : Expiring α) : ExpiringTable α :=
  ⟨(key, e) :: (t.erase key).entries⟩

/-- The live value under a key. -/
def live? (t : ExpiringTable α) (key : String) (now : Tick) : Option α :=
  ((t.lookup key).filter (·.isLive now)).map (·.value)

/-- The table without its expired entries. -/
def purge (t : ExpiringTable α) (now : Tick) : ExpiringTable α :=
  ⟨t.entries.filter fun e => e.2.isLive now⟩

/-- The number of entries that a purge removes. -/
def expiredCount (t : ExpiringTable α) (now : Tick) : Nat := t.size - (t.purge now).size

end ExpiringTable

end SealedLogin
