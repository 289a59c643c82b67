import SealedLogin.Text.Decimal

/-!
# IP addresses in text

IPv4 addresses in dotted decimal and IPv6 addresses in groups of hexadecimal digits, of which two
colons may stand for the longest run of zero groups. Readers take an address off the front of a
text.
-/

namespace SealedLogin

/-- An address of four octets. -/
structure Ipv4 where
  a : UInt8
  b : UInt8
  c : UInt8
  d : UInt8
deriving DecidableEq, Repr

/-- An address of eight groups of sixteen bits. -/
structure Ipv6 where
  groups : List UInt16
  length_eq : groups.length = 8
deriving DecidableEq, Repr

/-- Takes something off the front of a text. -/
abbrev TextReader (α : Type) := List Char → Option (α × List Char)

namespace TextReader

/-- A given character. -/
def char (c : Char) : TextReader Unit
  | [] => none
  | d :: rest => if d = c then some ((), rest) else none

/-- What another reader takes, behind a separator unless it is the first of its kind. -/
def separated {α : Type} (c : Char) (isFirst : Bool) (r : TextReader α) : TextReader α := fun s =>
  if isFirst then r s
  else
    match char c s with
    | some ((), rest) => r rest
    | none => none

/-- The value of a digit in a base up to sixteen. -/
def digitValue? (base : Nat) (c : Char) : Option Nat :=
  let n :=
    if c.isDigit then c.toNat - 48
    else if 'a' ≤ c ∧ c ≤ 'f' then c.toNat - 87
    else if 'A' ≤ c ∧ c ≤ 'F' then c.toNat - 55
    else 16
  if n < base then some n else none

/-- All the digits at the front of a text and the number they spell. -/
def digits (base : Nat) (s : List Char) : List Nat × Nat × List Char :=
  let ds := (s.takeWhile fun c => (digitValue? base c).isSome).filterMap (digitValue? base)
  (ds, ds.foldl (fun n d => n * base + d) 0, s.drop ds.length)

/-- A number of at least one digit, below a limit. -/
def number (base limit : Nat) : TextReader Nat := fun s =>
  let (ds, n, rest) := digits base s
  if ds.isEmpty || limit ≤ n then none else some (n, rest)

end TextReader

namespace Ipv4

open TextReader

/-- An octet in at most three decimal digits, without leading zeros. -/
def readOctet : TextReader UInt8 := fun s =>
  let (ds, n, rest) := digits 10 s
  if ds.isEmpty || 3 < ds.length || (1 < ds.length && ds.head? == some 0) || 256 ≤ n then none
  else some (UInt8.ofNat n, rest)

/-- An address in dotted decimal. -/
def read : TextReader Ipv4 := fun s => do
  let (a, s) ← readOctet s
  let (b, s) ← separated '.' false readOctet s
  let (c, s) ← separated '.' false readOctet s
  let (d, s) ← separated '.' false readOctet s
  return (⟨a, b, c, d⟩, s)

/-- The address as the last two groups of a longer one. -/
def groups (x : Ipv4) : List UInt16 :=
  [x.a.toUInt16 * 256 + x.b.toUInt16, x.c.toUInt16 * 256 + x.d.toUInt16]

/-- The address whose octets are in two groups. -/
def ofGroups (g h : UInt16) : Ipv4 :=
  ⟨(g / 256).toUInt8, (g % 256).toUInt8, (h / 256).toUInt8, (h % 256).toUInt8⟩

/-- The address in dotted decimal. -/
def toText (x : Ipv4) : String :=
  ".".intercalate ([x.a, x.b, x.c, x.d].map fun o => toString o.toNat)

end Ipv4

namespace Ipv6

open TextReader

/-- A group of at most four hexadecimal digits. -/
def readGroup : TextReader UInt16 := fun s =>
  let (ds, n, rest) := digits 16 s
  if ds.isEmpty || 4 < ds.length then none else some (UInt16.ofNat n, rest)

/-- At most `limit` groups separated by colons, and whether the last two of them were written in
dotted decimal, which ends the groups. -/
def readGroups : Nat → Bool → List Char → List UInt16 × Bool × List Char
  | 0, _, s => ([], false, s)
  | limit + 1, isFirst, s =>
      match if limit = 0 then none else separated ':' isFirst Ipv4.read s with
      | some (x, rest) => (x.groups, true, rest)
      | none =>
          match separated ':' isFirst readGroup s with
          | none => ([], false, s)
          | some (g, rest) =>
              let (gs, dotted, rest) := readGroups limit false rest
              (g :: gs, dotted, rest)

/-- The address of eight groups. -/
def ofGroups? (gs : List UInt16) : Option Ipv6 := if h : gs.length = 8 then some ⟨gs, h⟩ else none

/-- An address. Two colons stand for at least one zero group; dotted decimal may end it, but may not
stand before the two colons. -/
def read : TextReader Ipv6 := fun s =>
  let (head, dotted, rest) := readGroups 8 true s
  if head.length = 8 then (ofGroups? head).map (·, rest)
  else if dotted then none
  else do
    let ((), rest) ← char ':' rest
    let ((), rest) ← char ':' rest
    let (tail, _, rest) := readGroups (7 - head.length) true rest
    let zeros := List.replicate (8 - head.length - tail.length) 0
    return (← ofGroups? (head ++ zeros ++ tail), rest)

/-- The number of zero groups in a row from an index on. -/
def zerosAt (x : Ipv6) (i : Nat) : Nat := ((x.groups.drop i).takeWhile (· == 0)).length

/-- Where the first of the longest runs of zero groups begins. -/
def longestZeros (x : Ipv6) : Nat :=
  (List.range 8).foldl (fun best i => if x.zerosAt best < x.zerosAt i then i else best) 0

/-- Groups separated by colons. -/
def groupsText (gs : List UInt16) : String :=
  ":".intercalate (gs.map fun g => String.ofList (Nat.toDigits 16 g.toNat))

/-- The address in its shortest form. An address that stands for one of IPv4 ends in dotted decimal;
a single zero group is written out. -/
def toText (x : Ipv6) : String :=
  match x.groups with
  | [0, 0, 0, 0, 0, 0xffff, g, h] => "::ffff:" ++ (Ipv4.ofGroups g h).toText
  | groups =>
      let start := x.longestZeros
      let length := x.zerosAt start
      if length ≤ 1 then groupsText groups
      else groupsText (groups.take start) ++ "::" ++ groupsText (groups.drop (start + length))

end Ipv6

end SealedLogin
