import SealedLogin.Proofs.Store.Sharing

/-!
# Touches that are overtaken

A touch renews a session from the tick that it has read, not from the tick at which it has the lock.
While it waits for the lock, a call that has read the clock later may have it first
(`SharedStore.Overtaken`). If that call has renewed the session, the touch moves its end back; if
that call has found the session expired, the touch brings it back. Nothing else does either
(`SharedStore.overtaking_exact`), and both happen on a clock that never goes back
(`SharedStore.late`).
-/

namespace SealedLogin

theorem Tick.later?_eq_some_iff {t later : Tick} {ttl : Duration} : t.later? ttl = some later ↔
    t + ttl = later ∧ later / Duration.nanosPerSecond < Tick.secondLimit := by
  rw [Tick.later?]
  constructor
  · intro h
    split at h
    · cases h
      exact ⟨rfl, ‹_›⟩
    · cases h
  · rintro ⟨rfl, hreach⟩
    exact if_pos hreach

namespace Expiring

variable {α : Type} {x y : Expiring α} {reading renewed now : Tick} {ttl : Duration}

/-- At some tick the one is over and the other is still there. -/
def EndsBefore (x y : Expiring α) : Prop := ∃ now, x.isLive now = false ∧ y.isLive now = true

theorem isLive_eq_false_iff : x.isLive now = false ↔ ∃ t, x.expiresAt = some t ∧ t ≤ now := by
  rw [isLive]
  cases x.expiresAt with
  | none => simp
  | some t => simp

/-- Of two values that last equally long, the one that was renewed earlier ends before the other,
unless the clock does not reach its end. -/
theorem endsBefore_iff (hx : x.expiresAt = reading.later? ttl)
    (hy : y.expiresAt = renewed.later? ttl) :
    x.EndsBefore y ↔ reading < renewed ∧ (reading.later? ttl).isSome := by
  constructor
  · rintro ⟨now, hover, hlive⟩
    obtain ⟨t, ht, hle⟩ := isLive_eq_false_iff.1 hover
    obtain ⟨rfl, hreach⟩ := Tick.later?_eq_some_iff.1 (hx.symm.trans ht)
    refine ⟨Int.not_le.1 fun hlate => ?_, by rw [← hx, ht]; rfl⟩
    -- The clock then reaches the end of `y` as well, which comes no later.
    have hends : renewed + (ttl : Int) ≤ reading + ttl := Int.add_le_add_right hlate _
    have hdiv := Int.ediv_le_ediv (by decide : (0 : Int) < Duration.nanosPerSecond) hends
    have hy' : y.isLive now = false := by
      refine isLive_eq_false_iff.2 ⟨_, hy.trans (Tick.later?_eq_some_iff.2 ⟨rfl, ?_⟩), ?_⟩
      · exact Int.lt_of_le_of_lt hdiv hreach
      · exact Int.le_trans hends hle
    cases hy'.symm.trans hlive
  · rintro ⟨hlt, hreach⟩
    obtain ⟨t, ht⟩ := Option.isSome_iff_exists.1 hreach
    refine ⟨t, isLive_eq_false_iff.2 ⟨t, hx.trans ht, Int.le_refl t⟩, ?_⟩
    refine Bool.of_not_eq_false fun hover => ?_
    obtain ⟨t', ht', hle⟩ := isLive_eq_false_iff.1 hover
    obtain ⟨rfl, -⟩ := Tick.later?_eq_some_iff.1 ht
    obtain ⟨rfl, -⟩ := Tick.later?_eq_some_iff.1 (hy.symm.trans ht')
    exact absurd hle (Int.not_le.2 (Int.add_lt_add_right hlt _))

end Expiring

namespace SharedStore

variable {ttl : Duration} {s : SharedStore} {steps before before' : List StoreEvent}
  {d e e' : StoreEvent} {token : String} {reading reading' renewed renewed' now : Tick}
  {x : Expiring SessionRecord}

/-! ### The order of the steps -/

/-- The ticks of the steps are those of a clock that never goes back. -/
def InOrder (steps : List StoreEvent) : Prop := steps.Pairwise (·.now ≤ ·.now)

instance (steps : List StoreEvent) : Decidable (InOrder steps) :=
  inferInstanceAs (Decidable (steps.Pairwise _))

theorem InOrder.of_came (h : InOrder steps) (hcame : Came steps before e) :
    InOrder before ∧ ∀ c ∈ before, c.now ≤ e.now := by
  obtain ⟨hbefore, -, hle⟩ := List.pairwise_append.1 (h.sublist hcame.sublist)
  exact ⟨hbefore, fun c hc => hle c hc e (List.mem_singleton_self e)⟩

theorem InOrder.now_le (h : InOrder steps) (hcame : Came steps before' e')
    (hearlier : Came before' before e) : e.now ≤ e'.now :=
  (h.of_came hcame).2 e (hearlier.subset (List.mem_append_right _ (List.mem_singleton_self e)))

/-- What a call goes by at a step has been read on the clock when a later step is taken. -/
theorem InOrder.reading_le (h : InOrder steps) (hcame : Came steps before' e')
    (hearlier : Came before' before e) {u : StoreUse}
    (huse : (run ttl before).use? e = some (u, reading)) : reading ≤ e'.now := by
  have hpast := ((h.of_came hcame).1.of_came hearlier).2
  exact Int.le_trans (use?_reading_le hpast huse) (h.now_le hcame hearlier)

/-! ### From when on a session lasts -/

/-- The latest renewal of the session of the token went by the reading. -/
def RenewedAt (ttl : Duration) (steps : List StoreEvent) (token : String) (renewed : Tick) : Prop :=
  ∃ before e, Latest (fun before e => ∃ r, (run ttl before).Renews ttl e token r) steps before e
    ∧ (run ttl before).Renews ttl e token renewed

theorem renewedAt_concat_iff : RenewedAt ttl (steps ++ [d]) token renewed ↔
    (run ttl steps).Renews ttl d token renewed
      ∨ (¬∃ r, (run ttl steps).Renews ttl d token r) ∧ RenewedAt ttl steps token renewed := by
  rw [RenewedAt, exists_latest_concat_iff, and_iff_right_of_imp fun h => ⟨renewed, h⟩]
  rfl

theorem RenewedAt.unique (h : RenewedAt ttl steps token renewed)
    (h' : RenewedAt ttl steps token renewed') : renewed = renewed' := by
  obtain ⟨before, e, hlatest, hrenews⟩ := h
  obtain ⟨before', e', hlatest', hrenews'⟩ := h'
  obtain ⟨rfl, rfl⟩ := hlatest.unique hlatest'
  exact hrenews.unique hrenews'

theorem RenewedAt.le (h : RenewedAt ttl before token renewed) (hclock : InOrder steps)
    (hcame : Came steps before e) : renewed ≤ e.now := by
  obtain ⟨earlier, c, hlatest, u, huse, -⟩ := h
  exact hclock.reading_le hcame hlatest.came huse

/-- The time of a session that is in the store counts from its latest renewal. -/
theorem exists_renewedAt_of_mem (h : (token, x) ∈ (run ttl steps).sessions.entries) :
    ∃ renewed, RenewedAt ttl steps token renewed ∧ x.expiresAt = renewed.later? ttl := by
  induction steps using List.reverseRecOn with
  | nil => cases h
  | append_singleton steps d ih =>
    rw [run_concat] at h
    rcases mem_entries_after h with ⟨reading, hrenews, hend⟩ | ⟨hnot, hold⟩
    · exact ⟨reading, renewedAt_concat_iff.2 (.inl hrenews), hend⟩
    · obtain ⟨renewed, hrenewed, hend⟩ := ih hold
      exact ⟨renewed, renewedAt_concat_iff.2 (.inr ⟨hnot, hrenewed⟩), hend⟩

theorem RenewedAt.expiresAt_eq (h : RenewedAt ttl steps token renewed)
    (hmem : (token, x) ∈ (run ttl steps).sessions.entries) :
    x.expiresAt = renewed.later? ttl := by
  obtain ⟨renewed', hrenewed', hend⟩ := exists_renewedAt_of_mem hmem
  obtain rfl := h.unique hrenewed'
  exact hend

/-! ### Ends that move back -/

/-- The session of the token is in the store before and after the step, and after it ends earlier
than it would have before. -/
def MovesBack (s : SharedStore) (ttl : Duration) (e : StoreEvent) (token : String) : Prop :=
  ∃ x x', s.sessions.lookup token = some x ∧ (s.after ttl e).sessions.lookup token = some x'
    ∧ x'.EndsBefore x

/-- No step moves the end of the session of the token back. -/
def NeverShortened (ttl : Duration) (steps : List StoreEvent) (token : String) : Prop :=
  ∀ before e, Came steps before e → ¬(run ttl before).MovesBack ttl e token

/-- Only a touch moves the end of a session back, and it does so exactly if the session was renewed
by a later reading than that of the touch. -/
theorem movesBack_iff (hclock : InOrder steps) (hcame : Came steps before e) :
    (run ttl before).MovesBack ttl e token ↔
      ∃ reading renewed, (run ttl before).Touches ttl e token reading
        ∧ RenewedAt ttl before token renewed ∧ reading < renewed ∧ renewed ≤ e.now
        ∧ (reading.later? ttl).isSome := by
  constructor
  · rintro ⟨x, x', hlookup, hlookup', hback⟩
    have hmem := ExpiringTable.mem_entries_of_lookup hlookup
    obtain ⟨renewed, hrenewed, hx⟩ := exists_renewedAt_of_mem hmem
    have hle := hrenewed.le hclock hcame
    rcases mem_entries_after (ExpiringTable.mem_entries_of_lookup hlookup') with
      ⟨reading, hrenews, hx'⟩ | ⟨-, hold⟩
    · obtain ⟨hlt, hreach⟩ := (Expiring.endsBefore_iff hx' hx).1 hback
      rcases hrenews.touches_or with htouches | ⟨rfl, -⟩
      · exact ⟨reading, renewed, htouches, hrenewed, hlt, hle, hreach⟩
      · exact absurd hlt (Int.not_lt.2 hle)
    · have hx' := hrenewed.expiresAt_eq hold
      exact absurd ((Expiring.endsBefore_iff hx' hx).1 hback).1 (Int.lt_irrefl _)
  · rintro ⟨reading, renewed, htouches, hrenewed, hlt, -, hreach⟩
    obtain ⟨x, hlookup, hlookup'⟩ := htouches.lookup_after
    have hx := hrenewed.expiresAt_eq (ExpiringTable.mem_entries_of_lookup hlookup)
    exact ⟨x, _, hlookup, hlookup', (Expiring.endsBefore_iff rfl hx).2 ⟨hlt, hreach⟩⟩

/-! ### Sessions that come back -/

/-- After a call has missed the session of the token, whose time was over, no later call finds it,
unless it has been put anew. -/
def NeverRevived (ttl : Duration) (steps : List StoreEvent) (token : String) : Prop :=
  ∀ before e before' e' reading reading', Came steps before' e' → Came before' before e →
    (run ttl before).Misses ttl e token reading →
    ((run ttl before).sessions.lookup token).isSome →
    (∀ between c, Came before' between c → Came between before e → ¬c.Puts token) →
    ¬(run ttl before').Finds ttl e' token reading'

/-- What a call has missed is over for all readings from that of the call on. -/
theorem not_isLive_of_misses (h : (run ttl steps).Misses ttl e token reading)
    (hmem : (token, x) ∈ (run ttl steps).sessions.entries) : x.isLive reading = false := by
  obtain ⟨y, hlookup⟩ := ExpiringTable.exists_lookup_of_mem hmem
  obtain ⟨renewed, hrenewed, hx⟩ := exists_renewedAt_of_mem hmem
  have hy := hrenewed.expiresAt_eq (ExpiringTable.mem_entries_of_lookup hlookup)
  have hover := h.not_isLive hlookup
  rwa [Expiring.isLive, hy, ← hx] at hover

/-- After a call has missed the session of a token, what is left of it stays over, until it is put
anew or a touch finds it by an earlier reading than that of the call. -/
theorem over_or_exists_touch (hcame : Came steps before e)
    (hmisses : (run ttl before).Misses ttl e token reading)
    (hputs : ∀ between c, Came steps between c → Came between before e → ¬c.Puts token) :
    (∀ x, (token, x) ∈ (run ttl steps).sessions.entries → x.isLive reading = false)
      ∨ ∃ between c r, Came steps between c ∧ Came between before e
        ∧ (run ttl between).Touches ttl c token r ∧ r < reading := by
  induction steps using List.reverseRecOn with
  | nil => exact absurd hcame not_came_nil
  | append_singleton steps d ih =>
    rw [run_concat]
    rcases came_concat_iff.1 hcame with ⟨rfl, rfl⟩ | hcame
    · refine .inl fun x hx => ?_
      rcases mem_entries_after hx with ⟨r, hrenews, -⟩ | ⟨-, hold⟩
      · exact absurd hrenews hmisses.not_renews
      · exact not_isLive_of_misses hmisses hold
    · by_cases htouch : ∃ r, (run ttl steps).Touches ttl d token r ∧ r < reading
      · obtain ⟨r, htouches, hlt⟩ := htouch
        exact .inr ⟨steps, d, r, came_concat_self steps d, hcame, htouches, hlt⟩
      rcases ih hcame fun between c hlater => hputs between c (hlater.append [d]) with
        hover | ⟨between, c, r, hlater, hrest⟩
      · refine .inl fun x hx => ?_
        rcases mem_entries_after hx with ⟨r, hrenews, -⟩ | ⟨-, hold⟩
        · rcases hrenews.touches_or with htouches | ⟨-, hput⟩
          · -- A touch with a later reading would have found a session that was over by then.
            obtain ⟨y, hlookup, hlive⟩ := Finds.exists_lookup ⟨_, htouches⟩
            have hle : reading ≤ r := Int.not_lt.1 fun hlt => htouch ⟨r, htouches, hlt⟩
            cases (hover y (ExpiringTable.mem_entries_of_lookup hlookup)).symm.trans
              (Expiring.isLive_of_le hlive hle)
          · exact absurd hput (hputs steps d (came_concat_self steps d) hcame)
        · exact hover x hold
      · exact .inr ⟨between, c, r, hlater.append [d], hrest⟩

/-- A session that a call has missed is not found again before it is put anew or a touch, which may
be the one that finds it, takes it up by an earlier reading. -/
theorem exists_touch_of_finds (hclock : InOrder steps) (hcame' : Came steps before' e')
    (hcame : Came before' before e) (hmisses : (run ttl before).Misses ttl e token reading)
    (hfinds : (run ttl before').Finds ttl e' token reading')
    (hputs : ∀ between c, Came before' between c → Came between before e → ¬c.Puts token) :
    ∃ between c r, Came (before' ++ [e']) between c ∧ Came between before e
      ∧ (run ttl between).Touches ttl c token r ∧ r < reading := by
  rcases over_or_exists_touch hcame hmisses hputs with hover | ⟨between, c, r, hlater, hrest⟩
  · obtain ⟨x, hlookup, hlive⟩ := hfinds.exists_lookup
    have hlt : reading' < reading := by
      refine Int.not_le.1 fun hle => ?_
      cases (hover x (ExpiringTable.mem_entries_of_lookup hlookup)).symm.trans
        (Expiring.isLive_of_le hlive hle)
    rcases hfinds.touches_or with htouches | rfl
    · exact ⟨before', e', reading', came_concat_self before' e', hcame, htouches, hlt⟩
    · obtain ⟨u, huse, -⟩ := hmisses
      exact absurd hlt (Int.not_lt.2 (hclock.reading_le hcame' hcame huse))
  · exact ⟨between, c, r, hlater.append [e'], hrest⟩

/-! ### Overtaken touches -/

/-- At the step, a touch finds the session of the token after another call, which has read the clock
later, has renewed the session or missed it. -/
def Overtaken (ttl : Duration) (before : List StoreEvent) (e : StoreEvent) (token : String) :
    Prop :=
  ∃ reading, (run ttl before).Touches ttl e token reading
    ∧ ∃ before' e' reading', Came before before' e' ∧ reading < reading'
      ∧ ((run ttl before').Renews ttl e' token reading'
        ∨ (run ttl before').Misses ttl e' token reading')

/-- The call that has had the lock before has read the clock by then, so a touch is overtaken only
while it waits. -/
theorem Overtaken.exists_reading_lt (hclock : InOrder steps) (hcame : Came steps before e)
    (h : Overtaken ttl before e token) :
    ∃ reading, (run ttl before).Touches ttl e token reading ∧ reading < e.now := by
  obtain ⟨reading, htouches, before', e', reading', hcame', hlt, hover⟩ := h
  obtain ⟨u, huse⟩ : ∃ u, (run ttl before').use? e' = some (u, reading') :=
    hover.elim (fun ⟨u, huse, _⟩ => ⟨u, huse⟩) fun ⟨u, huse, _⟩ => ⟨u, huse⟩
  exact ⟨reading, htouches, Int.lt_of_lt_of_le hlt (hclock.reading_le hcame hcame' huse)⟩

/-- The end of a session moves back exactly when a touch finds it by a reading that is earlier than
the one it was renewed by, which is no later than the step; so the touch takes away no more than the
time for which it has waited. A session that a call has missed is found again only after a touch has
found it by a reading that is earlier than that of the call. In particular neither happens in a run
in which no touch of the session is overtaken, and a touch that has not waited is not. -/
theorem overtaking_exact (ttl : Duration) (steps : List StoreEvent) (token : String)
    (hclock : InOrder steps) :
    (∀ before e, Came steps before e → ((run ttl before).MovesBack ttl e token ↔
      ∃ reading renewed, (run ttl before).Touches ttl e token reading
        ∧ RenewedAt ttl before token renewed ∧ reading < renewed ∧ renewed ≤ e.now
        ∧ (reading.later? ttl).isSome))
    ∧ (∀ before e before' e' reading reading', Came steps before' e' → Came before' before e →
      (run ttl before).Misses ttl e token reading →
      (run ttl before').Finds ttl e' token reading' →
      (∀ between c, Came before' between c → Came between before e → ¬c.Puts token) →
      ∃ between c r, Came (before' ++ [e']) between c ∧ Came between before e
        ∧ (run ttl between).Touches ttl c token r ∧ r < reading)
    ∧ (∀ before e, Came steps before e → Overtaken ttl before e token →
      ∃ reading, (run ttl before).Touches ttl e token reading ∧ reading < e.now)
    ∧ ((∀ before e, Came steps before e → ¬Overtaken ttl before e token) →
      NeverShortened ttl steps token ∧ NeverRevived ttl steps token) := by
  refine ⟨fun before e hcame => movesBack_iff hclock hcame, ?_, ?_, fun hnone => ⟨?_, ?_⟩⟩
  · exact fun before e before' e' reading reading' hcame' hcame hmisses hfinds hputs =>
      exists_touch_of_finds hclock hcame' hcame hmisses hfinds hputs
  · exact fun before e hcame hover => hover.exists_reading_lt hclock hcame
  · intro before e hcame hback
    obtain ⟨reading, renewed, htouches, ⟨before', e', hlatest, hrenews⟩, hlt, -⟩ :=
      (movesBack_iff hclock hcame).1 hback
    exact hnone before e hcame
      ⟨reading, htouches, before', e', renewed, hlatest.came, hlt, .inl hrenews⟩
  · intro before e before' e' reading reading' hcame' hcame hmisses _ hputs hfinds
    obtain ⟨between, c, r, hlater, hsince, htouches, hlt⟩ :=
      exists_touch_of_finds hclock hcame' hcame hmisses hfinds hputs
    exact hnone between c (List.IsPrefix.trans hlater hcame')
      ⟨r, htouches, before, e, reading, hsince, hlt, .inr hmisses⟩

/-! ### Two runs -/

/-- A session under a token. -/
def sessionOf (token : String) : SessionRecord := ⟨token, ⟨"user", none⟩, ⟨0, 0⟩⟩

/-- A touch waits for the lock while another call has it, which has read the clock later, but only
looks the session up. -/
def waiting : List StoreEvent :=
  [⟨.put (sessionOf "a"), 0⟩, ⟨.readClock 1, 3⟩, ⟨.get "a", 4⟩, ⟨.touch 1 "a", 5⟩]

theorem not_overtaken_waiting (hcame : Came waiting before e) : ¬Overtaken 10 before e "a" := by
  rintro ⟨reading, htouches, before', e', reading', hcame', hlt, hover⟩
  simp only [waiting, came_cons_iff, not_came_nil, and_false, exists_false, or_false] at hcame
  obtain ⟨rfl, rfl⟩ | ⟨_, rfl, ⟨rfl, rfl⟩ | ⟨_, rfl, ⟨rfl, rfl⟩ | ⟨_, rfl, rfl, rfl⟩⟩⟩ := hcame
  · cases htouches.1
  · cases htouches.1
  · cases htouches.1
  · cases htouches.1
    simp only [came_cons_iff, not_came_nil, and_false, exists_false, or_false] at hcame'
    obtain ⟨rfl, rfl⟩ | ⟨_, rfl, ⟨rfl, rfl⟩ | ⟨_, rfl, rfl, rfl⟩⟩ := hcame'
    · -- The session was put before the touch read the clock.
      obtain ⟨u, huse, -⟩ | ⟨u, huse, -⟩ := hover
      · cases huse
        exact absurd hlt (by decide)
      · cases huse
        exact absurd hlt (by decide)
    · obtain ⟨u, huse, -⟩ | ⟨u, huse, -⟩ := hover
      · cases huse
      · cases huse
    · obtain ⟨u, huse, hrenews⟩ | ⟨u, huse, hmisses⟩ := hover
      · cases huse
        exact hrenews
      · cases huse
        cases hmisses.2

/-- The touch that has waited takes nothing away from the session. -/
theorem overtaking_exact_waiting : InOrder waiting ∧ NeverShortened 10 waiting "a"
    ∧ NeverRevived 10 waiting "a" := by
  have hclock : InOrder waiting := by decide
  exact ⟨hclock, (overtaking_exact 10 waiting "a" hclock).2.2.2
    fun before e hcame => not_overtaken_waiting hcame⟩

/-- Two touches wait. The one is overtaken by a touch that renews its session, the other by a call
that finds its session expired. -/
def late : List StoreEvent :=
  [⟨.put (sessionOf "a"), 0⟩, ⟨.put (sessionOf "b"), 0⟩, ⟨.readClock 1, 5⟩, ⟨.readClock 2, 5⟩,
    ⟨.readClock 3, 8⟩, ⟨.touch 3 "a", 8⟩, ⟨.touch 1 "a", 9⟩, ⟨.get "b", 12⟩, ⟨.touch 2 "b", 13⟩]

/-- On a clock that never goes back, a touch may still shorten a session, and may bring an expired
one back. -/
theorem overtaken_touch_shortens_and_revives : InOrder late ∧ ¬NeverShortened 10 late "a"
    ∧ ¬NeverRevived 10 late "b" := by
  refine ⟨by decide, fun h => ?_, fun h => ?_⟩
  · refine h (late.take 6) ⟨.touch 1 "a", 9⟩ ⟨late.drop 7, rfl⟩ ?_
    exact ⟨⟨sessionOf "a", some 18⟩, ⟨sessionOf "a", some 15⟩, rfl, rfl, 15, rfl, rfl⟩
  · refine h (late.take 7) ⟨.get "b", 12⟩ (late.take 8) ⟨.touch 2 "b", 13⟩ 12 5 ⟨[], rfl⟩
      ⟨[], rfl⟩ ⟨.get "b", rfl, rfl, rfl⟩ rfl ?_ ⟨.touch "b", rfl, rfl, rfl⟩
    exact fun between c hcame hlater => absurd hlater (not_came_of_last hcame)

end SharedStore

end SealedLogin
