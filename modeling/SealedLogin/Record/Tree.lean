import SealedLogin.Record

/-!
# Nested records

A tree of records has byte strings at its leaves; an inner node is the combination of its branches.
`Tree.record` builds the outer record from the bottom up, and `Tree.read` takes a record apart along
the shape of a tree.
-/

namespace SealedLogin.Record

/-- A tree with byte strings at its leaves. -/
inductive Tree where
  | leaf (value : Bytes)
  | node (branches : List Tree)
deriving Repr, Inhabited

namespace Tree

mutual

def record : Tree → Except Record.Oversize Record
  | .leaf value => .ok ⟨value⟩
  | .node branches =>
      match records branches with
      | .error o => .error o
      | .ok rs => Record.combine rs

/-- The records of some trees in order. -/
def records : List Tree → Except Record.Oversize (List Record)
  | [] => .ok []
  | t :: ts =>
      match record t with
      | .error o => .error o
      | .ok r =>
          match records ts with
          | .error o => .error o
          | .ok rs => .ok (r :: rs)

end

/-- Why a record cannot be read along a shape. -/
inductive Fault where
  /-- The bytes of a node are no records. -/
  | record (fault : Record.Fault)
  /-- A node has `found` records where the shape has `wanted` branches. -/
  | branches (wanted found : Nat)

mutual

/-- The tree of the given shape that a record carries. -/
def read : Tree → Record → Except Fault Tree
  | .leaf _, r => .ok (.leaf r.value)
  | .node shapes, r =>
      match r.expand with
      | .error f => .error (.record f)
      | .ok rs =>
          if rs.length = shapes.length then (readAll shapes rs).map .node
          else .error (.branches shapes.length rs.length)

/-- The trees of the given shapes that some records carry. -/
def readAll : List Tree → List Record → Except Fault (List Tree)
  | shape :: shapes, r :: rs =>
      match read shape r with
      | .error f => .error f
      | .ok t => (readAll shapes rs).map (t :: ·)
  | _, _ => .ok []

end

mutual

/-- The number of nodes, leaves included. -/
def size : Tree → Nat
  | .leaf _ => 1
  | .node branches => 1 + sizeAll branches

/-- The number of nodes of some trees together. -/
def sizeAll : List Tree → Nat
  | [] => 0
  | t :: ts => size t + sizeAll ts

end

mutual

/-- The byte strings at the leaves, from left to right. -/
def leaves : Tree → List Bytes
  | .leaf value => [value]
  | .node branches => leavesAll branches

/-- The byte strings at the leaves of some trees, from left to right. -/
def leavesAll : List Tree → List Bytes
  | [] => []
  | t :: ts => leaves t ++ leavesAll ts

end

end Tree

end SealedLogin.Record
