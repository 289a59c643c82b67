import Mathlib.Tactic.SplitIfs
import SealedLogin.Store.Expiring

/-!
# What a table holds

How the operations on a table bear on the entry under one key. An entry stays under its key under an
operation on another key, and under a purge while it is live (`lookup_erase_of_ne`,
`lookup_insert_of_ne`, `lookup_purge_of_isLive`). `Contains` also counts entries that have expired.
-/

namespace SealedLogin

variable {α : Type}

namespace Expiring

theorem isLive_of_le {e : Expiring α} {earlier now : Tick} (h : e.isLive now = true)
    (hle : earlier ≤ now) : e.isLive earlier = true := by
  unfold isLive at h ⊢
  split at h
  · simp only [decide_eq_true_eq] at h ⊢
    exact Int.lt_of_le_of_lt hle h
  · rfl

/-- A value is live as long as it was started for, and longer if the clock does not reach its
end. -/
theorem isLive_start (value : α) {now later : Tick} {ttl : Duration} (h : later < now + ttl) :
    (start value now ttl).isLive later = true := by
  unfold isLive start Tick.later?
  dsimp only
  split_ifs
  · exact decide_eq_true h
  · rfl

/-- On a clock that can show the tick, a value is live for as long as it was started for. -/
theorem isLive_start_iff (value : α) {now later : Tick} {ttl : Duration}
    (hlater : later / Duration.nanosPerSecond < Tick.secondLimit) :
    (start value now ttl).isLive later = true ↔ later < now + ttl := by
  refine ⟨fun h => ?_, isLive_start value⟩
  unfold isLive start Tick.later? at h
  dsimp only at h
  split_ifs at h with hreach
  · exact of_decide_eq_true h
  · refine Int.not_le.1 fun hle => hreach ?_
    have hdiv := Int.ediv_le_ediv (by decide : (0 : Int) < Duration.nanosPerSecond) hle
    exact Int.lt_of_le_of_lt hdiv hlater

end Expiring

namespace ExpiringTable

variable {t : ExpiringTable α} {key other : String} {e : Expiring α} {a : α} {now earlier : Tick}

/-! ### The entry under a key -/

theorem lookup_erase_of_ne (h : key ≠ other) : (t.erase other).lookup key = t.lookup key := by
  rw [lookup, lookup, erase]
  induction t.entries with
  | nil => rfl
  | cons p entries ih =>
    rw [List.filter_cons]
    by_cases hp : p.1 = other
    · have hkey : (key == p.1) = false := beq_false_of_ne fun heq => h (heq.trans hp)
      rw [if_neg (by simp [hp]), ih, List.lookup_cons, hkey]
    · rw [if_pos (by simpa using hp), List.lookup_cons, List.lookup_cons, ih]

theorem lookup_insert_self (t : ExpiringTable α) (key : String) (e : Expiring α) :
    (t.insert key e).lookup key = some e :=
  List.lookup_cons_self

theorem lookup_insert_of_ne (h : key ≠ other) : (t.insert other e).lookup key = t.lookup key := by
  have hkey : (key == other) = false := beq_false_of_ne h
  have hrest : (t.insert other e).lookup key = (t.erase other).lookup key := by
    rw [lookup, insert, List.lookup_cons, hkey]
    rfl
  rw [hrest, lookup_erase_of_ne h]

/-- A purge leaves what is live under a key; it cannot uncover another entry under it. -/
theorem lookup_purge_of_isLive (h : t.lookup key = some e) (hlive : e.isLive now = true) :
    (t.purge now).lookup key = some e := by
  rw [lookup, List.lookup_eq_some_iff] at h
  obtain ⟨front, back, hentries, hfront⟩ := h
  rw [lookup, purge, hentries, List.lookup_eq_some_iff]
  refine ⟨front.filter (·.2.isLive now), back.filter (·.2.isLive now), ?_, ?_⟩
  · rw [List.filter_append, List.filter_cons, if_pos hlive]
  · intro p hp
    exact hfront p (List.mem_filter.1 hp).1

theorem mem_entries_of_lookup (h : t.lookup key = some e) : (key, e) ∈ t.entries := by
  obtain ⟨front, back, hentries, -⟩ := List.lookup_eq_some_iff.1 h
  simp [hentries]

theorem exists_lookup_of_mem (h : (key, e) ∈ t.entries) : ∃ e', t.lookup key = some e' := by
  refine Option.ne_none_iff_exists'.1 fun hnone => ?_
  have hne := List.lookup_eq_none_iff.1 hnone (key, e) h
  simp only [bne_self_eq_false, Bool.false_eq_true] at hne

/-! ### The entries -/

theorem mem_entries_erase_iff :
    (key, e) ∈ (t.erase other).entries ↔ key ≠ other ∧ (key, e) ∈ t.entries := by
  simp only [erase, List.mem_filter, bne_iff_ne, and_comm, ne_eq]

theorem mem_entries_insert_iff {e' : Expiring α} : (key, e') ∈ (t.insert other e).entries ↔
    key = other ∧ e' = e ∨ key ≠ other ∧ (key, e') ∈ t.entries := by
  rw [← mem_entries_erase_iff]
  simp only [insert, List.mem_cons, Prod.mk.injEq]

theorem mem_entries_of_purge (h : (key, e) ∈ (t.purge now).entries) : (key, e) ∈ t.entries :=
  (List.mem_filter.1 h).1

theorem eq_of_insert_eq {t' : ExpiringTable α} {e' : Expiring α}
    (h : t.insert key e = t'.insert other e') : e = e' := by
  simp only [insert, ExpiringTable.mk.injEq, List.cons.injEq, Prod.mk.injEq] at h
  exact h.1.2

/-! ### The live value under a key -/

theorem live?_eq_some_iff : t.live? key now = some a ↔
    ∃ e, t.lookup key = some e ∧ e.isLive now = true ∧ e.value = a := by
  simp only [live?, Option.map_eq_some_iff, Option.filter_eq_some_iff, and_assoc]

theorem live?_insert_start (t : ExpiringTable α) (key : String) (a : α) {ttl : Duration}
    (h : now < earlier + ttl) : (t.insert key (.start a earlier ttl)).live? key now = some a :=
  live?_eq_some_iff.2 ⟨_, lookup_insert_self t key _, Expiring.isLive_start a h, rfl⟩

/-! ### Everything under a key -/

/-- The table has the value under the key, expired or not. -/
def Contains (t : ExpiringTable α) (key : String) (a : α) : Prop :=
  ∃ e, (key, e) ∈ t.entries ∧ e.value = a

theorem not_contains_empty : ¬(empty : ExpiringTable α).Contains key a := by
  rintro ⟨e, he, -⟩
  cases he

theorem contains_of_live? (h : t.live? key now = some a) : t.Contains key a := by
  obtain ⟨e, hlookup, -, hvalue⟩ := live?_eq_some_iff.1 h
  exact ⟨e, mem_entries_of_lookup hlookup, hvalue⟩

theorem contains_erase_iff : (t.erase other).Contains key a ↔ key ≠ other ∧ t.Contains key a := by
  simp only [Contains, mem_entries_erase_iff, and_assoc, exists_and_left]

theorem contains_insert_iff : (t.insert other e).Contains key a ↔
    key = other ∧ a = e.value ∨ key ≠ other ∧ t.Contains key a := by
  simp only [Contains, mem_entries_insert_iff]
  constructor
  · rintro ⟨e', ⟨rfl, rfl⟩ | ⟨hne, he⟩, hvalue⟩
    · exact .inl ⟨rfl, hvalue.symm⟩
    · exact .inr ⟨hne, e', he, hvalue⟩
  · rintro (⟨rfl, rfl⟩ | ⟨hne, e', he, hvalue⟩)
    · exact ⟨e, .inl ⟨rfl, rfl⟩, rfl⟩
    · exact ⟨e', .inr ⟨hne, he⟩, hvalue⟩

end ExpiringTable

end SealedLogin
