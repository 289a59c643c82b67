import Mathlib.Logic.Function.Basic
import SealedLogin.Proofs.Login.History

/-!
# Calls that share the store of sessions

The calls of many clients use one store of sessions, each while it has the lock. Most calls read the
clock under the lock. A touch reads it first and waits for the lock afterwards, so that it takes two
steps, and other calls may come in between (`CallStep`, `SharedStore.run`). What it then does goes
by a reading that may be older than the store it finds (`SharedStore.use?`).

What a step leaves under a token is told by `SharedStore.mem_entries_after`.
-/

namespace SealedLogin

/-- What a call does with a store of sessions while it has the lock. -/
inductive StoreUse where
  | put (session : SessionRecord)
  | get (token : String)
  | touch (token : String)
  | invalidate (token : String)
  | purge

namespace StoreUse

variable {ttl : Duration} {reading : Tick} {u : StoreUse} {s : SessionStore} {token : String}
  {x : Expiring SessionRecord}

/-- The store after a use that goes by a reading of the clock. What is put or renewed lasts for a
length of time from then on. -/
def after (ttl : Duration) (reading : Tick) (u : StoreUse) (s : SessionStore) : SessionStore :=
  match u with
  | .put session => s.put session reading ttl
  | .get _ => s
  | .touch token => (s.touch token reading ttl).2
  | .invalidate token => (s.invalidate token reading).2
  | .purge => s.purge reading

/-- The caller learns that the session of the token is there. -/
def Finds (ttl : Duration) (reading : Tick) (u : StoreUse) (s : SessionStore) (token : String) :
    Prop :=
  match u with
  | .get other => other = token ∧ (s.get other reading).isSome
  | .touch other => other = token ∧ (s.touch other reading ttl).1.isSome
  | .invalidate other => other = token ∧ (s.invalidate other reading).1 = true
  | .put _ | .purge => False

/-- The caller learns that there is no session of the token, or leaves none, in the case of a
purge. -/
def Misses (ttl : Duration) (reading : Tick) (u : StoreUse) (s : SessionStore) (token : String) :
    Prop :=
  match u with
  | .get other => other = token ∧ s.get other reading = none
  | .touch other => other = token ∧ (s.touch other reading ttl).1 = none
  | .invalidate other => other = token ∧ (s.invalidate other reading).1 = false
  | .purge => (s.purge reading).lookup token = none
  | .put _ => False

/-- The time of the session of the token begins anew. -/
def Renews (ttl : Duration) (reading : Tick) (u : StoreUse) (s : SessionStore) (token : String) :
    Prop :=
  match u with
  | .put session => session.token = token
  | .touch _ => u.Finds ttl reading s token
  | .get _ | .invalidate _ | .purge => False

theorem touch_fst (s : SessionStore) (token : String) (reading : Tick) (ttl : Duration) :
    (s.touch token reading ttl).1 = s.live? token reading := by
  rw [SessionStore.touch, ExpiringTable.live?]
  cases (s.lookup token).filter (·.isLive reading) <;> rfl

theorem Finds.exists_live (h : u.Finds ttl reading s token) :
    ∃ session, s.live? token reading = some session := by
  refine Option.isSome_iff_exists.1 ?_
  cases u with
  | get other =>
    obtain ⟨rfl, h⟩ := h
    exact h
  | touch other =>
    obtain ⟨rfl, h⟩ := h
    rwa [touch_fst] at h
  | invalidate other =>
    obtain ⟨rfl, h⟩ := h
    exact h
  | put _ => exact h.elim
  | purge => exact h.elim

theorem Misses.live?_eq_none (h : u.Misses ttl reading s token) :
    s.live? token reading = none := by
  cases u with
  | get other =>
    obtain ⟨rfl, h⟩ := h
    exact h
  | touch other =>
    obtain ⟨rfl, h⟩ := h
    rwa [touch_fst] at h
  | invalidate other =>
    obtain ⟨rfl, h⟩ := h
    exact Option.not_isSome_iff_eq_none.1 (ne_true_of_eq_false h)
  | purge =>
    refine Option.eq_none_iff_forall_ne_some.2 fun session hlive => ?_
    obtain ⟨x, hlookup, hx, -⟩ := ExpiringTable.live?_eq_some_iff.1 hlive
    cases h.symm.trans (ExpiringTable.lookup_purge_of_isLive hlookup hx)
  | put _ => exact h.elim

/-- What is under a token after a use was renewed by it, or was there before. -/
theorem mem_entries_after (h : (token, x) ∈ (u.after ttl reading s).entries) :
    u.Renews ttl reading s token ∧ x.expiresAt = reading.later? ttl
      ∨ ¬u.Renews ttl reading s token ∧ (token, x) ∈ s.entries := by
  cases u with
  | put session =>
    rcases ExpiringTable.mem_entries_insert_iff.1 h with ⟨rfl, rfl⟩ | ⟨hne, hold⟩
    · exact .inl ⟨rfl, rfl⟩
    · exact .inr ⟨hne.symm, hold⟩
  | get other => exact .inr ⟨id, h⟩
  | touch other =>
    simp only [after, SessionStore.touch] at h
    have hfinds : (StoreUse.touch other).Renews ttl reading s token ↔
        other = token ∧ ((s.lookup other).filter (·.isLive reading)).isSome := by
      simp only [Renews, Finds, touch_fst, ExpiringTable.live?, Option.isSome_map]
    rw [hfinds]
    cases hlookup : (s.lookup other).filter (·.isLive reading) with
    | none =>
      rw [hlookup] at h
      exact .inr ⟨by simp, h⟩
    | some y =>
      rw [hlookup] at h
      rcases ExpiringTable.mem_entries_insert_iff.1 h with ⟨rfl, rfl⟩ | ⟨hne, hold⟩
      · exact .inl ⟨⟨rfl, rfl⟩, rfl⟩
      · exact .inr ⟨fun hfound => hne hfound.1.symm, hold⟩
  | invalidate other => exact .inr ⟨id, (ExpiringTable.mem_entries_erase_iff.1 h).2⟩
  | purge => exact .inr ⟨id, ExpiringTable.mem_entries_of_purge h⟩

end StoreUse

/-- A step of one of the calls that share a store. The calls that touch are numbered. -/
inductive CallStep where
  | put (session : SessionRecord)
  | get (token : String)
  | invalidate (token : String)
  | purge
  /-- A touch begins. This takes no lock. -/
  | readClock (call : Nat)
  /-- A touch has the lock. -/
  | touch (call : Nat) (token : String)

/-- A step and the tick at which it is taken. -/
structure StoreEvent where
  step : CallStep
  now : Tick

/-- A session with the token is put into the store at the step. -/
def StoreEvent.Puts (e : StoreEvent) (token : String) : Prop :=
  ∃ session, e.step = .put session ∧ session.token = token

/-- A store of sessions and the calls that wait for it. -/
structure SharedStore where
  sessions : SessionStore
  /-- What touches that wait for the lock have read on the clock. -/
  readings : Nat → Option Tick

namespace SharedStore

/-- The store before any call. -/
def empty : SharedStore := ⟨.empty, fun _ => none⟩

/-- What a step does under the lock, and the reading of the clock that it goes by. A touch that has
not read the clock cannot have the lock. -/
def use? (s : SharedStore) (e : StoreEvent) : Option (StoreUse × Tick) :=
  match e.step with
  | .put session => some (.put session, e.now)
  | .get token => some (.get token, e.now)
  | .invalidate token => some (.invalidate token, e.now)
  | .purge => some (.purge, e.now)
  | .readClock _ => none
  | .touch call token => (s.readings call).map fun reading => (.touch token, reading)

/-- What waiting touches have read, after a step. -/
def readingsAfter (s : SharedStore) (e : StoreEvent) : Nat → Option Tick :=
  match e.step with
  | .readClock call => Function.update s.readings call (some e.now)
  | .touch call _ => Function.update s.readings call none
  | .put _ | .get _ | .invalidate _ | .purge => s.readings

/-- The store after a step. -/
def after (ttl : Duration) (s : SharedStore) (e : StoreEvent) : SharedStore :=
  ⟨(s.use? e).elim s.sessions fun use => use.1.after ttl use.2 s.sessions, s.readingsAfter e⟩

/-- The store after steps of any calls, one after another, in which every session lasts for the same
length of time. -/
def run (ttl : Duration) (steps : List StoreEvent) : SharedStore :=
  steps.foldl (after ttl) empty

/-- By the reading, a call learns at the step that the session of the token is there. -/
def Finds (s : SharedStore) (ttl : Duration) (e : StoreEvent) (token : String) (reading : Tick) :
    Prop :=
  ∃ u, s.use? e = some (u, reading) ∧ u.Finds ttl reading s.sessions token

/-- By the reading, a call learns at the step that there is no session of the token. -/
def Misses (s : SharedStore) (ttl : Duration) (e : StoreEvent) (token : String) (reading : Tick) :
    Prop :=
  ∃ u, s.use? e = some (u, reading) ∧ u.Misses ttl reading s.sessions token

/-- From the reading on, the time of the session of the token begins anew at the step. -/
def Renews (s : SharedStore) (ttl : Duration) (e : StoreEvent) (token : String) (reading : Tick) :
    Prop :=
  ∃ u, s.use? e = some (u, reading) ∧ u.Renews ttl reading s.sessions token

/-- At the step, a touch that has the reading finds the session of the token. -/
def Touches (s : SharedStore) (ttl : Duration) (e : StoreEvent) (token : String) (reading : Tick) :
    Prop :=
  s.use? e = some (.touch token, reading)
    ∧ (StoreUse.touch token).Finds ttl reading s.sessions token

variable {ttl : Duration} {s : SharedStore} {steps before : List StoreEvent} {e : StoreEvent}
  {token : String} {reading reading' now : Tick} {x : Expiring SessionRecord}

theorem run_concat (ttl : Duration) (steps : List StoreEvent) (e : StoreEvent) :
    run ttl (steps ++ [e]) = (run ttl steps).after ttl e := by
  rw [run, List.foldl_append]
  rfl

/-! ### Readings -/

/-- A touch whose two steps nothing comes between uses the store as if it had read the clock under
the lock. -/
theorem sessions_of_prompt (ttl : Duration) (s : SharedStore) (call : Nat) (token : String)
    (now : Tick) :
    ((s.after ttl ⟨.readClock call, now⟩).after ttl ⟨.touch call token, now⟩).sessions
      = (s.sessions.touch token now ttl).2 := by
  simp only [after, use?, readingsAfter, Function.update_self, Option.map_some, Option.elim_some,
    Option.elim_none, StoreUse.after]

theorem readingsAfter_cases {call : Nat} (h : s.readingsAfter e call = some reading) :
    reading = e.now ∨ s.readings call = some reading := by
  obtain ⟨step, tick⟩ := e
  cases step with
  | readClock other =>
    simp only [readingsAfter, Function.update_apply] at h
    split at h
    · cases h
      exact .inl rfl
    · exact .inr h
  | touch other _ =>
    simp only [readingsAfter, Function.update_apply] at h
    split at h
    · cases h
    · exact .inr h
  | put _ | get _ | invalidate _ | purge => exact .inr h

/-- What a waiting touch has read lies in the past. -/
theorem reading_le_of_run (hpast : ∀ e ∈ steps, e.now ≤ now) {call : Nat}
    (h : (run ttl steps).readings call = some reading) : reading ≤ now := by
  induction steps using List.reverseRecOn with
  | nil => cases h
  | append_singleton steps e ih =>
    rw [run_concat] at h
    rcases readingsAfter_cases h with rfl | hold
    · exact hpast e (List.mem_append_right _ (List.mem_singleton_self e))
    · exact ih (fun c hc => hpast c (List.mem_append_left _ hc)) hold

/-- A step goes by the tick at which it is taken, unless it is the second one of a touch. -/
theorem use?_cases {u : StoreUse} (h : s.use? e = some (u, reading)) :
    reading = e.now ∨ ∃ call token, s.readings call = some reading ∧ u = .touch token := by
  obtain ⟨step, tick⟩ := e
  cases step with
  | readClock _ => cases h
  | touch call token =>
    simp only [use?, Option.map_eq_some_iff, Prod.mk.injEq] at h
    obtain ⟨r, hr, rfl, rfl⟩ := h
    exact .inr ⟨call, token, hr, rfl⟩
  | put _ | get _ | invalidate _ | purge =>
    cases h
    exact .inl rfl

theorem use?_reading_le {u : StoreUse} (hpast : ∀ c ∈ before, c.now ≤ e.now)
    (h : (run ttl before).use? e = some (u, reading)) : reading ≤ e.now := by
  rcases use?_cases h with rfl | ⟨call, token, hread, -⟩
  · exact Int.le_refl _
  · exact reading_le_of_run hpast hread

/-! ### What a step finds and leaves -/

theorem Renews.unique (h : s.Renews ttl e token reading) (h' : s.Renews ttl e token reading') :
    reading = reading' := by
  obtain ⟨u, huse, -⟩ := h
  obtain ⟨u', huse', -⟩ := h'
  cases huse.symm.trans huse'
  rfl

theorem Finds.exists_lookup (h : s.Finds ttl e token reading) :
    ∃ x, s.sessions.lookup token = some x ∧ x.isLive reading = true := by
  obtain ⟨u, -, hfinds⟩ := h
  obtain ⟨session, hlive⟩ := hfinds.exists_live
  obtain ⟨x, hlookup, hx, -⟩ := ExpiringTable.live?_eq_some_iff.1 hlive
  exact ⟨x, hlookup, hx⟩

theorem Misses.not_renews (h : s.Misses ttl e token reading) :
    ¬s.Renews ttl e token reading' := by
  rintro ⟨u', huse', hrenews⟩
  obtain ⟨u, huse, hmisses⟩ := h
  obtain ⟨rfl, rfl⟩ : u = u' ∧ reading = reading' := by simpa using huse.symm.trans huse'
  cases u with
  | touch other => exact absurd hmisses.2 (Option.isSome_iff_ne_none.1 hrenews.2)
  | put _ => exact hmisses
  | get _ | invalidate _ | purge => exact hrenews

theorem Misses.not_isLive (h : s.Misses ttl e token reading)
    (hlookup : s.sessions.lookup token = some x) : x.isLive reading = false := by
  obtain ⟨u, -, hmisses⟩ := h
  refine Bool.eq_false_iff.2 fun hlive => ?_
  cases hmisses.live?_eq_none.symm.trans
    (ExpiringTable.live?_eq_some_iff.2 ⟨x, hlookup, hlive, rfl⟩)

/-- What is found is found by a touch, or by the tick of the step. -/
theorem Finds.touches_or (h : s.Finds ttl e token reading) :
    s.Touches ttl e token reading ∨ reading = e.now := by
  obtain ⟨u, huse, hfinds⟩ := h
  rcases use?_cases huse with hnow | ⟨call, other, -, rfl⟩
  · exact .inr hnow
  · obtain rfl : other = token := hfinds.1
    exact .inl ⟨huse, hfinds⟩

/-- What is renewed is renewed by a touch, or put by the tick of the step. -/
theorem Renews.touches_or (h : s.Renews ttl e token reading) :
    s.Touches ttl e token reading ∨ reading = e.now ∧ e.Puts token := by
  obtain ⟨step, tick⟩ := e
  obtain ⟨u, huse, hrenews⟩ := h
  cases step with
  | readClock _ => cases huse
  | touch call other =>
    have huse' := huse
    simp only [use?, Option.map_eq_some_iff, Prod.mk.injEq] at huse'
    obtain ⟨r, -, rfl, rfl⟩ := huse'
    obtain rfl : other = token := hrenews.1
    exact .inl ⟨huse, hrenews⟩
  | put session =>
    cases huse
    exact .inr ⟨rfl, session, rfl, hrenews⟩
  | get _ | invalidate _ | purge =>
    cases huse
    exact hrenews.elim

theorem Touches.lookup_after (h : s.Touches ttl e token reading) :
    ∃ x, s.sessions.lookup token = some x
      ∧ (s.after ttl e).sessions.lookup token = some (x.renew reading ttl) := by
  obtain ⟨x, hlookup, hlive⟩ := Finds.exists_lookup ⟨_, h⟩
  refine ⟨x, hlookup, ?_⟩
  have hfound : (s.sessions.lookup token).filter (·.isLive reading) = some x := by
    rw [hlookup, Option.filter_some, if_pos hlive]
  rw [after, h.1]
  simp only [Option.elim_some, StoreUse.after, SessionStore.touch, hfound]
  exact ExpiringTable.lookup_insert_self _ _ _

/-- What is under a token after a step was renewed by it, or was there before. -/
theorem mem_entries_after (h : (token, x) ∈ (s.after ttl e).sessions.entries) :
    (∃ reading, s.Renews ttl e token reading ∧ x.expiresAt = reading.later? ttl)
      ∨ (¬∃ reading, s.Renews ttl e token reading) ∧ (token, x) ∈ s.sessions.entries := by
  rw [after] at h
  cases huse : s.use? e with
  | none =>
    rw [huse] at h
    refine .inr ⟨?_, h⟩
    rintro ⟨reading, u, hsome, -⟩
    cases huse.symm.trans hsome
  | some use =>
    obtain ⟨u, reading⟩ := use
    rw [huse] at h
    rcases StoreUse.mem_entries_after h with ⟨hrenews, hend⟩ | ⟨hnot, hold⟩
    · exact .inl ⟨reading, ⟨u, huse, hrenews⟩, hend⟩
    · refine .inr ⟨?_, hold⟩
      rintro ⟨reading', u', hsome, hrenews⟩
      cases huse.symm.trans hsome
      exact hnot hrenews

end SharedStore

end SealedLogin
