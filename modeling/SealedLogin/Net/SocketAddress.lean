import SealedLogin.Net.IpAddress

/-!
# Socket addresses in text

An IP address and a port. The address of an IPv6 socket stands in brackets and may name a scope by
its number. `SocketAddress.ofText?` reads the whole of a text, `SocketAddress.toText` writes the
normal form.
-/

namespace SealedLogin

/-- Where a server listens. -/
inductive SocketAddress where
  | v4 (address : Ipv4) (port : UInt16)
  /-- Scope zero is none. -/
  | v6 (address : Ipv6) (scope : UInt32) (port : UInt16)
deriving DecidableEq, Repr

namespace SocketAddress

open TextReader

/-- A port behind a colon, with any number of leading zeros. -/
def readPort : TextReader UInt16 := fun s => do
  let (n, s) ← separated ':' false (number 10 (Nat.pow 2 16)) s
  return (UInt16.ofNat n, s)

/-- A scope behind a percent sign, or none. -/
def readScope (s : List Char) : UInt32 × List Char :=
  match separated '%' false (number 10 (Nat.pow 2 32)) s with
  | some (n, rest) => (UInt32.ofNat n, rest)
  | none => (0, s)

/-- An IPv4 address and a port. -/
def readV4 : TextReader SocketAddress := fun s => do
  let (address, s) ← Ipv4.read s
  let (port, s) ← readPort s
  return (.v4 address port, s)

/-- An IPv6 address in brackets, with or without a scope, and a port. -/
def readV6 : TextReader SocketAddress := fun s => do
  let ((), s) ← char '[' s
  let (address, s) ← Ipv6.read s
  let (scope, s) := readScope s
  let ((), s) ← char ']' s
  let (port, s) ← readPort s
  return (.v6 address scope port, s)

/-- The address that a text spells. -/
def ofText? (text : String) : Option SocketAddress :=
  match (readV4 text.toList).or (readV6 text.toList) with
  | some (address, []) => some address
  | _ => none

/-- The text of an address. -/
def toText : SocketAddress → String
  | .v4 address port => address.toText ++ ":" ++ toString port.toNat
  | .v6 address scope port =>
      let scope := if scope = 0 then "" else "%" ++ toString scope.toNat
      "[" ++ address.toText ++ scope ++ "]:" ++ toString port.toNat

end SocketAddress

end SealedLogin
