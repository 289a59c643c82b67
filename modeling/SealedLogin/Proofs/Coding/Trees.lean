import SealedLogin.Proofs.Coding.Canonical
import SealedLogin.Record.Tree

/-!
# Nested records are read back

A tree of records can be built and written if the value of every node is short enough
(`Tree.Fits`). What is written is read back along any tree of the same shape, whatever stands at the
leaves of that one (`read_of_record`), and its length is known in advance (`length_of_record`). All
statements come in pairs, for a tree and for the branches of a node, and are proved together by
recursion on the tree.
-/

namespace SealedLogin.Record.Tree

mutual

/-- The nodes of a tree, itself and its leaves included. -/
def nodes : Tree → List Tree
  | .leaf value => [.leaf value]
  | .node branches => .node branches :: nodesAll branches

/-- The nodes of some trees together. -/
def nodesAll : List Tree → List Tree
  | [] => []
  | t :: ts => nodes t ++ nodesAll ts

end

mutual

/-- The trees branch alike; what stands at their leaves may differ. -/
def SameShape : Tree → Tree → Prop
  | .leaf _, .leaf _ => True
  | .node ts, .node us => SameShapes ts us
  | _, _ => False

/-- The trees branch alike, one by one. -/
def SameShapes : List Tree → List Tree → Prop
  | [], [] => True
  | t :: ts, u :: us => SameShape t u ∧ SameShapes ts us
  | _, _ => False

end

/-- The value of every node is shorter than the limit. -/
def Fits (t : Tree) : Prop :=
  ∀ n ∈ t.nodes, ∀ r, n.record = .ok r → r.value.length < sizeLimit

/-- The tree as it is written: the record of its root. -/
def wire (t : Tree) : Except Oversize Bytes := t.record.bind marshal

theorem mem_nodes_self (t : Tree) : t ∈ t.nodes := by
  cases t <;> simp [nodes]

theorem records_cons_eq_ok_iff {t : Tree} {ts : List Tree} {rs : List Record} :
    records (t :: ts) = .ok rs ↔
      ∃ r tail, t.record = .ok r ∧ records ts = .ok tail ∧ rs = r :: tail := by
  rw [records]
  cases t.record with
  | error o => simp
  | ok r => cases records ts <;> simp [eq_comm]

theorem record_node_eq_ok_iff {ts : List Tree} {r : Record} :
    (node ts).record = .ok r ↔ ∃ rs, records ts = .ok rs ∧ combine rs = .ok r := by
  rw [record]
  cases records ts <;> simp

/-! ### Building -/

mutual

theorem exists_record : ∀ t : Tree, t.Fits → ∃ r, t.record = .ok r
  | .leaf value, _ => ⟨⟨value⟩, by rw [record]⟩
  | .node ts, h => by
    obtain ⟨rs, hrs, hlength⟩ := exists_records ts fun n hn => h n (by simp [nodes, hn])
    obtain ⟨r, hr⟩ := exists_combine hlength
    exact ⟨r, record_node_eq_ok_iff.2 ⟨rs, hrs, hr⟩⟩

theorem exists_records : ∀ ts : List Tree,
    (∀ n ∈ nodesAll ts, ∀ r, n.record = .ok r → r.value.length < sizeLimit) →
    ∃ rs, records ts = .ok rs ∧ ∀ r ∈ rs, r.value.length < sizeLimit
  | [], _ => ⟨[], by rw [records], by simp⟩
  | t :: ts, h => by
    have ht : t.Fits := fun n hn => h n (by simp [nodesAll, hn])
    obtain ⟨r, hr⟩ := exists_record t ht
    obtain ⟨rs, hrs, hlength⟩ := exists_records ts fun n hn => h n (by simp [nodesAll, hn])
    refine ⟨r :: rs, records_cons_eq_ok_iff.2 ⟨r, rs, hr, hrs, rfl⟩, ?_⟩
    simpa [ht t (mem_nodes_self t) r hr] using hlength

end

/-! ### Reading -/

mutual

theorem read_of_record : ∀ (shape t : Tree) {r : Record}, shape.SameShape t → t.record = .ok r →
    shape.read r = .ok t
  | .leaf _, .leaf value, r, _, h => by
    rw [record] at h
    cases h
    rw [read]
  | .node shapes, .node ts, r, hshape, h => by
    obtain ⟨rs, hrs, hr⟩ := record_node_eq_ok_iff.1 h
    rw [SameShape] at hshape
    obtain ⟨hlength, hread⟩ := readAll_of_records shapes ts hshape hrs
    simp [read, expand_eq_ok_iff.2 hr, hlength, hread, Except.map]
  | .leaf _, .node _, _, hshape, _ => by simp [SameShape] at hshape
  | .node _, .leaf _, _, hshape, _ => by simp [SameShape] at hshape

theorem readAll_of_records : ∀ (shapes ts : List Tree) {rs : List Record}, SameShapes shapes ts →
    records ts = .ok rs → rs.length = shapes.length ∧ readAll shapes rs = .ok ts
  | [], [], rs, _, h => by
    rw [records] at h
    cases h
    simp [readAll]
  | shape :: shapes, t :: ts, rs, hshape, h => by
    rw [SameShapes] at hshape
    obtain ⟨r, tail, hr, htail, rfl⟩ := records_cons_eq_ok_iff.1 h
    obtain ⟨hlength, hread⟩ := readAll_of_records shapes ts hshape.2 htail
    simp [readAll, read_of_record shape t hshape.1 hr, hread, hlength, Except.map]
  | [], _ :: _, _, hshape, _ => by simp [SameShapes] at hshape
  | _ :: _, [], _, hshape, _ => by simp [SameShapes] at hshape

end

mutual

theorem sameShape_refl : ∀ t : Tree, t.SameShape t
  | .leaf _ => by simp [SameShape]
  | .node ts => by
    rw [SameShape]
    exact sameShapes_refl ts

theorem sameShapes_refl : ∀ ts : List Tree, SameShapes ts ts
  | [] => by simp [SameShapes]
  | t :: ts => by
    rw [SameShapes]
    exact ⟨sameShape_refl t, sameShapes_refl ts⟩

end

theorem wire_eq_ok_iff {t : Tree} {w : Bytes} :
    t.wire = .ok w ↔ ∃ r, t.record = .ok r ∧ marshal r = .ok w := by
  rw [wire]
  cases t.record <;> simp [Except.bind]

/-- The shape and the written form of a tree make out the tree. -/
theorem wire_injective {t u : Tree} {w : Bytes} (hshape : t.SameShape u) (ht : t.wire = .ok w)
    (hu : u.wire = .ok w) : t = u := by
  obtain ⟨r, hr, hw⟩ := wire_eq_ok_iff.1 ht
  obtain ⟨s, hs, hw'⟩ := wire_eq_ok_iff.1 hu
  obtain rfl := marshal_injective hw hw'
  have hread := read_of_record t u hshape hs
  rw [read_of_record t t (sameShape_refl t) hr] at hread
  exact Except.ok.inj hread

/-! ### Lengths -/

theorem length_of_combine {rs : List Record} {r : Record} (h : combine rs = .ok r) :
    r.value.length = encodedLengths rs := by
  obtain ⟨pieces, hpieces, hvalue⟩ := combine_eq_ok_iff.1 h
  rw [hvalue]
  clear h hvalue
  induction hpieces with
  | nil => rfl
  | cons hw _ ih =>
    rw [List.flatten_cons, List.length_append, length_marshal hw, ih, encodedLengths]

mutual

theorem length_of_record : ∀ (t : Tree) {r : Record}, t.record = .ok r →
    r.encodedLength = 4 * t.size + (t.leaves.map List.length).sum
  | .leaf value, r, h => by
    rw [record] at h
    cases h
    simp [encodedLength, size, leaves]
  | .node ts, r, h => by
    obtain ⟨rs, hrs, hr⟩ := record_node_eq_ok_iff.1 h
    rw [encodedLength, length_of_combine hr, length_of_records ts hrs, size, leaves]
    omega

theorem length_of_records : ∀ (ts : List Tree) {rs : List Record}, records ts = .ok rs →
    encodedLengths rs = 4 * sizeAll ts + ((leavesAll ts).map List.length).sum
  | [], rs, h => by
    rw [records] at h
    cases h
    rfl
  | t :: ts, rs, h => by
    obtain ⟨r, tail, hr, htail, rfl⟩ := records_cons_eq_ok_iff.1 h
    rw [encodedLengths, length_of_record t hr, length_of_records ts htail, sizeAll, leavesAll,
      List.map_append, List.sum_append]
    omega

end

/-- A tree of which every node has a short enough value can be built and written, in four bytes a
node and the bytes at its leaves. What is written is one record, and reading it along a tree of the
same shape gives the tree, so that two trees of one shape are written alike only if they are
equal. -/
theorem wire_faithful :
    (∀ t : Tree, t.Fits → ∃ r w, t.record = .ok r ∧ marshal r = .ok w
      ∧ (∀ shape : Tree, shape.SameShape t →
        ∃ outer, unmarshal w = .ok outer ∧ shape.read outer = .ok t)
      ∧ w.length = 4 * t.size + (t.leaves.map List.length).sum)
    ∧ ∀ (t u : Tree) (w : Bytes), t.SameShape u → t.wire = .ok w → u.wire = .ok w → t = u := by
  refine ⟨fun t h => ?_, fun t u w => wire_injective⟩
  obtain ⟨r, hr⟩ := exists_record t h
  have hw : marshal r = .ok (Bytes.ofNatBE 4 r.value.length ++ r.value) :=
    marshal_eq_ok_iff.2 ⟨h t (mem_nodes_self t) r hr, rfl⟩
  refine ⟨r, _, hr, hw, fun shape hshape => ?_, ?_⟩
  · exact ⟨r, unmarshal_eq_ok_iff.2 hw, read_of_record shape t hshape hr⟩
  · rw [length_marshal hw, length_of_record t hr]

/-- A tree with an empty leaf and an empty branch takes four bytes for each of them. -/
theorem wire_faithful_empty_parts : ∃ r w,
    (node [.leaf [], .node [], .leaf [1, 2]]).record = .ok r ∧ marshal r = .ok w
      ∧ (∃ outer, unmarshal w = .ok outer
        ∧ (node [.leaf [7], .node [], .leaf []]).read outer
          = .ok (node [.leaf [], .node [], .leaf [1, 2]]))
      ∧ w.length = 18 := by
  have hrecord : (node [.leaf [], .node [], .leaf [1, 2]]).record
      = .ok ⟨[0, 0, 0, 0, 0, 0, 0, 0, 0, 0, 0, 2, 1, 2]⟩ := by rfl
  have hfits : (node [.leaf [], .node [], .leaf [1, 2]]).Fits := by
    intro n hn r hr
    simp only [nodes, nodesAll, List.append_nil, List.cons_append, List.nil_append, List.mem_cons,
      List.not_mem_nil, or_false] at hn
    rcases hn with rfl | rfl | rfl | rfl
    · rw [hrecord] at hr
      cases hr
      decide
    all_goals cases hr; decide
  obtain ⟨r, w, hr, hw, hread, hlength⟩ := wire_faithful.1 _ hfits
  exact ⟨r, w, hr, hw, hread _ (by simp [SameShape, SameShapes]), hlength⟩

end SealedLogin.Record.Tree
