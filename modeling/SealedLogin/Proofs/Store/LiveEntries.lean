import SealedLogin.Proofs.Store.Tables

/-!
# The live entries of a table

Two tables may differ in what has expired and still have the same live entries (`SameLive`). Tables
that have them at one tick have them at all later ones, and keep them under an insertion or an
erasure in both, and under a purge of one. A purge counts and drops exactly what has expired
(`expiredCount_eq_countP`, `mem_entries_purge_iff`).
-/

namespace SealedLogin

namespace ExpiringTable

variable {α : Type} {t t' : ExpiringTable α} {key other : String} {e : Expiring α} {a : α}
  {now later : Tick}

/-! ### What a purge leaves and counts -/

theorem mem_entries_purge_iff :
    (key, e) ∈ (t.purge now).entries ↔ (key, e) ∈ t.entries ∧ e.isLive now = true :=
  List.mem_filter

theorem expiredCount_eq_countP (t : ExpiringTable α) (now : Tick) :
    t.expiredCount now = t.entries.countP fun p => !p.2.isLive now := by
  have hall := List.length_eq_countP_add_countP (fun p : String × Expiring α => p.2.isLive now)
    (l := t.entries)
  rw [expiredCount, size, size, purge, ← List.countP_eq_length_filter, hall]
  simp

/-! ### Distinct keys -/

/-- No key occurs twice. -/
def Distinct (t : ExpiringTable α) : Prop := (t.entries.map (·.1)).Nodup

theorem distinct_empty : (empty : ExpiringTable α).Distinct := List.nodup_nil

theorem Distinct.erase (h : t.Distinct) (key : String) : (t.erase key).Distinct :=
  h.sublist (List.filter_sublist.map _)

theorem Distinct.purge (h : t.Distinct) (now : Tick) : (t.purge now).Distinct :=
  h.sublist (List.filter_sublist.map _)

theorem Distinct.insert (h : t.Distinct) (key : String) (e : Expiring α) :
    (t.insert key e).Distinct := by
  refine List.nodup_cons.2 ⟨fun hmem => ?_, h.erase key⟩
  obtain ⟨⟨other, e'⟩, hentry, rfl⟩ := List.mem_map.1 hmem
  exact (mem_entries_erase_iff.1 hentry).1 rfl

theorem Distinct.lookup_eq_some_iff (h : t.Distinct) :
    t.lookup key = some e ↔ (key, e) ∈ t.entries := by
  refine ⟨mem_entries_of_lookup, fun hmem => List.lookup_eq_some_iff.2 ?_⟩
  obtain ⟨front, back, hentries⟩ := List.append_of_mem hmem
  refine ⟨front, back, hentries, fun p hp => ?_⟩
  unfold Distinct at h
  rw [hentries, List.map_append, List.map_cons] at h
  have hfront := (List.nodup_append.1 h).2.2 p.1 (List.mem_map_of_mem hp) key List.mem_cons_self
  exact bne_iff_ne.2 fun heq => hfront heq.symm

/-! ### The live entry under a key -/

/-- The entry under a key, if it is live. -/
def liveAt? (t : ExpiringTable α) (key : String) (now : Tick) : Option (Expiring α) :=
  (t.lookup key).filter (·.isLive now)

theorem liveAt?_eq_some_iff :
    t.liveAt? key now = some e ↔ t.lookup key = some e ∧ e.isLive now = true :=
  Option.filter_eq_some_iff

theorem Distinct.liveAt?_eq_some_iff (h : t.Distinct) :
    t.liveAt? key now = some e ↔ (key, e) ∈ t.entries ∧ e.isLive now = true := by
  rw [ExpiringTable.liveAt?_eq_some_iff, h.lookup_eq_some_iff]

theorem live?_eq_map_liveAt? (t : ExpiringTable α) (key : String) (now : Tick) :
    t.live? key now = (t.liveAt? key now).map (·.value) := rfl

theorem liveAt?_erase_self (t : ExpiringTable α) (key : String) (now : Tick) :
    (t.erase key).liveAt? key now = none := by
  refine Option.eq_none_iff_forall_not_mem.2 fun e he => ?_
  have hmem := mem_entries_of_lookup (liveAt?_eq_some_iff.1 he).1
  exact (mem_entries_erase_iff.1 hmem).1 rfl

theorem erase_ne_of_live? {t : ExpiringTable α} {key : String} {now : Tick} {a : α}
    (h : t.live? key now = some a) : t.erase key ≠ t := by
  intro heq
  rw [← heq, live?_eq_map_liveAt?, liveAt?_erase_self] at h
  cases h

theorem liveAt?_erase_of_ne (h : key ≠ other) :
    (t.erase other).liveAt? key now = t.liveAt? key now := by
  rw [liveAt?, liveAt?, lookup_erase_of_ne h]

theorem liveAt?_insert_self (t : ExpiringTable α) (key : String) (e : Expiring α) (now : Tick) :
    (t.insert key e).liveAt? key now = (some e).filter (·.isLive now) := by
  rw [liveAt?, lookup_insert_self]

theorem liveAt?_insert_of_ne (h : key ≠ other) :
    (t.insert other e).liveAt? key now = t.liveAt? key now := by
  rw [liveAt?, liveAt?, lookup_insert_of_ne h]

/-- What is live later stays under a purge, and a purge brings nothing up. -/
theorem Distinct.liveAt?_purge (h : t.Distinct) (hle : now ≤ later) :
    (t.purge now).liveAt? key later = t.liveAt? key later := by
  refine Option.ext fun e => ?_
  rw [(h.purge now).liveAt?_eq_some_iff, h.liveAt?_eq_some_iff, mem_entries_purge_iff]
  refine and_congr_left fun hlive => and_iff_left ?_
  exact Expiring.isLive_of_le hlive hle

/-! ### Tables with the same live entries -/

/-- At the tick, the tables have the same entries under all keys, except for expired ones. -/
def SameLive (now : Tick) (t t' : ExpiringTable α) : Prop :=
  ∀ key, t.liveAt? key now = t'.liveAt? key now

theorem SameLive.refl (now : Tick) (t : ExpiringTable α) : SameLive now t t := fun _ => rfl

theorem SameLive.live?_eq (h : SameLive now t t') (key : String) :
    t.live? key now = t'.live? key now := by
  rw [live?_eq_map_liveAt?, live?_eq_map_liveAt?, h key]

theorem SameLive.of_le (h : SameLive now t t') (hle : now ≤ later) : SameLive later t t' := by
  have hlater : ∀ (t : ExpiringTable α) (key : String),
      t.liveAt? key later = (t.liveAt? key now).filter (·.isLive later) := by
    intro t key
    rw [liveAt?, liveAt?, Option.filter_filter]
    congr 1
    funext e
    cases hlive : e.isLive later
    · rw [Bool.and_false]
    · rw [Expiring.isLive_of_le hlive hle, Bool.and_self]
  intro key
  rw [hlater, hlater, h key]

theorem SameLive.erase (h : SameLive now t t') (key : String) :
    SameLive now (t.erase key) (t'.erase key) := by
  intro other
  by_cases hkey : other = key
  · rw [hkey, liveAt?_erase_self, liveAt?_erase_self]
  · rw [liveAt?_erase_of_ne hkey, liveAt?_erase_of_ne hkey, h other]

theorem SameLive.insert (h : SameLive now t t') (key : String) (e : Expiring α) :
    SameLive now (t.insert key e) (t'.insert key e) := by
  intro other
  by_cases hkey : other = key
  · rw [hkey, liveAt?_insert_self, liveAt?_insert_self]
  · rw [liveAt?_insert_of_ne hkey, liveAt?_insert_of_ne hkey, h other]

theorem SameLive.purge (h : SameLive later t t') (ht : t.Distinct) (hle : now ≤ later) :
    SameLive later (t.purge now) t' := by
  intro key
  rw [ht.liveAt?_purge hle, h key]

/-- The same live entries, as entries of the tables. -/
theorem SameLive.mem_entries_iff (h : SameLive now t t') (ht : t.Distinct) (ht' : t'.Distinct)
    (hlive : e.isLive now = true) : (key, e) ∈ t.entries ↔ (key, e) ∈ t'.entries := by
  have hentries : (key, e) ∈ t.entries ∧ e.isLive now = true
      ↔ (key, e) ∈ t'.entries ∧ e.isLive now = true := by
    rw [← ht.liveAt?_eq_some_iff, ← ht'.liveAt?_eq_some_iff, h key]
  simpa only [hlive, and_true] using hentries

end ExpiringTable

end SealedLogin
