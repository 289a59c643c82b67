import SealedLogin.Proofs.Login.Handshake
import SealedLogin.Proofs.Login.History

/-!
# The life of a session

A session stands from the login that issues its token until a logout, and each resolve that succeeds
renews it (`Stands`). The store of a server holds the sessions that were opened and not ended and no
others (`exists_opened_of_mem`, `lookup_of_opened`). From this it follows when a token is resolved,
when it can be ended, and that no other call makes a difference to either (`session_lifetime`).
-/

namespace SealedLogin

namespace LoginServer

variable {server : LoginServer} {calls more : List ServerCall} {d : ServerCall} {token : String}
  {session session' : SessionRecord} {now used : Tick} {e : Expiring SessionRecord}

/-! ### Which sessions stand -/

/-- The latest login that issued the token of the session opened the session, and no logout has
ended it since. -/
def Opened (server : LoginServer) (calls : List ServerCall) (session : SessionRecord) : Prop :=
  ∃ before c,
    Latest (fun before c => server.Opens (server.run .empty before) c session.token) calls before c
      ∧ server.Admits (server.run .empty before) c session
      ∧ ∀ before' c', Came before' before c → Came calls before' c' →
        ¬Ends (server.run .empty before') c' session.token

/-- The latest call that issued or resolved the token was made at the tick. -/
def LastUsed (server : LoginServer) (calls : List ServerCall) (token : String) (used : Tick) :
    Prop :=
  ∃ before c, Latest (fun before c => server.Opens (server.run .empty before) c token
      ∨ server.Resolves (server.run .empty before) c token) calls before c
    ∧ c.now.tick = used

/-- A login has opened the session, and its time, which begins anew with each use, is not over. -/
def Stands (server : LoginServer) (calls : List ServerCall) (session : SessionRecord) (now : Tick) :
    Prop :=
  server.Opened calls session
    ∧ ∃ used, server.LastUsed calls session.token used ∧ now < used + server.lifetimes.session

theorem Opened.unique (h : server.Opened calls session) (h' : server.Opened calls session')
    (htoken : session.token = session'.token) : session = session' := by
  obtain ⟨before, c, hlatest, hadmits, -⟩ := h
  obtain ⟨before', c', hlatest', hadmits', -⟩ := h'
  rw [htoken] at hlatest
  obtain ⟨rfl, rfl⟩ := hlatest.unique hlatest'
  exact hadmits.unique hadmits'

theorem opened_concat_iff : server.Opened (calls ++ [d]) session ↔
    server.Admits (server.run .empty calls) d session
      ∨ ¬server.Opens (server.run .empty calls) d session.token
        ∧ ¬Ends (server.run .empty calls) d session.token ∧ server.Opened calls session := by
  constructor
  · rintro ⟨before, c, hlatest, hadmits, hends⟩
    rcases latest_concat_iff.1 hlatest with ⟨-, rfl, rfl⟩ | ⟨hopens, hold⟩
    · exact .inl hadmits
    · refine .inr ⟨hopens, hends _ _ hold.came (came_concat_self _ _), before, c, hold, hadmits, ?_⟩
      exact fun before' c' hlater hcame => hends before' c' hlater (hcame.append [d])
  · rintro (hadmits | ⟨hopens, hend, before, c, hold, hadmits, hends⟩)
    · refine ⟨calls, d, latest_concat_iff.2 (.inl ⟨⟨session, hadmits, rfl⟩, rfl, rfl⟩), hadmits, ?_⟩
      exact fun before' c' hlater hcame => absurd hlater (not_came_of_last hcame)
    · refine ⟨before, c, latest_concat_iff.2 (.inr ⟨hopens, hold⟩), hadmits, ?_⟩
      intro before' c' hlater hcame
      rcases came_concat_iff.1 hcame with ⟨rfl, rfl⟩ | hcame
      · exact hend
      · exact hends before' c' hlater hcame

theorem lastUsed_concat_iff : server.LastUsed (calls ++ [d]) token used ↔
    (server.Opens (server.run .empty calls) d token
        ∨ server.Resolves (server.run .empty calls) d token) ∧ d.now.tick = used
      ∨ ¬(server.Opens (server.run .empty calls) d token
          ∨ server.Resolves (server.run .empty calls) d token)
        ∧ server.LastUsed calls token used :=
  exists_latest_concat_iff

/-- A call that does not concern the token of a session makes no difference to whether it stands. -/
theorem stands_concat_of_not_concerns
    (hnone : ¬server.Concerns (server.run .empty calls) d session.token) :
    server.Stands (calls ++ [d]) session now ↔ server.Stands calls session now := by
  simp only [Concerns, not_or] at hnone
  obtain ⟨hopens, hresolves, hends⟩ := hnone
  have hadmits : ¬server.Admits (server.run .empty calls) d session :=
    fun h => hopens ⟨session, h, rfl⟩
  simp only [Stands, opened_concat_iff, lastUsed_concat_iff, hadmits, hopens, hresolves, hends,
    false_or, not_false_eq_true, true_and, or_self, false_and]

/-- What is in the store was opened by a login and not ended, and its time counts from its last
use. -/
theorem exists_opened_of_mem (h : (token, e) ∈ (server.run .empty calls).sessions.entries) :
    ∃ session used, server.Opened calls session ∧ server.LastUsed calls token used
      ∧ token = session.token ∧ e = .start session used server.lifetimes.session := by
  induction calls using List.reverseRecOn generalizing e with
  | nil => cases h
  | append_singleton calls d ih =>
    rw [run_concat] at h
    rcases mem_sessions_after h with ⟨session, hadmits, rfl, rfl⟩ |
      ⟨hresolves, earlier, hold, rfl⟩ | ⟨hnone, hold⟩
    · refine ⟨session, _, opened_concat_iff.2 (.inl hadmits), ?_, rfl, rfl⟩
      exact lastUsed_concat_iff.2 (.inl ⟨.inl ⟨session, hadmits, rfl⟩, rfl⟩)
    · obtain ⟨session, used, hopened, -, rfl, rfl⟩ := ih hold
      refine ⟨session, _, opened_concat_iff.2 (.inr ⟨?_, ?_, hopened⟩),
        lastUsed_concat_iff.2 (.inl ⟨.inr hresolves, rfl⟩), rfl, rfl⟩
      · rintro ⟨_, ⟨_, _, _, hc, -⟩, -⟩
        cases hc.symm.trans hresolves.1
      · rintro ⟨hc, -⟩
        cases hc.symm.trans hresolves.1
    · obtain ⟨session, used, hopened, hused, rfl, rfl⟩ := ih hold
      simp only [Concerns, not_or] at hnone
      obtain ⟨hopens, hresolves, hends⟩ := hnone
      refine ⟨session, used, opened_concat_iff.2 (.inr ⟨hopens, hends, hopened⟩), ?_, rfl, rfl⟩
      exact lastUsed_concat_iff.2 (.inr ⟨not_or.2 ⟨hopens, hresolves⟩, hused⟩)

/-- A session that was opened and not ended is in the store until the clock has passed its end. -/
theorem lookup_of_opened (hopened : server.Opened calls session)
    (hused : server.LastUsed calls session.token used)
    (hlive : (Expiring.start session used server.lifetimes.session).isLive now = true)
    (hpast : ∀ c ∈ calls, c.now.tick ≤ now) :
    (server.run .empty calls).sessions.lookup session.token
      = some (.start session used server.lifetimes.session) := by
  -- Before its latest use the session had another end, hence any `used` in the hypothesis.
  induction calls using List.reverseRecOn generalizing used with
  | nil =>
    obtain ⟨before, c, hlatest, -⟩ := hopened
    exact absurd hlatest.came not_came_nil
  | append_singleton calls d ih =>
    rw [run_concat]
    rcases opened_concat_iff.1 hopened with hadmits | ⟨hopens, hends, hopened⟩
    · rcases lastUsed_concat_iff.1 hused with ⟨-, rfl⟩ | ⟨hnone, -⟩
      · exact lookup_sessions_of_admits hadmits
      · exact absurd (.inl ⟨session, hadmits, rfl⟩) hnone
    · rcases lastUsed_concat_iff.1 hused with ⟨hopens' | hresolves, rfl⟩ | ⟨hnone, hused⟩
      · exact absurd hopens' hopens
      · -- Which session was renewed is known from what the store can hold at all.
        obtain ⟨e, hmem, hlookup⟩ := lookup_sessions_of_resolves hresolves
        obtain ⟨session', _, hopened', -, htoken, rfl⟩ := exists_opened_of_mem hmem
        obtain rfl := hopened.unique hopened' htoken
        exact hlookup
      · have hold := ih hopened hused hlive fun c hc => hpast c (List.mem_append_left _ hc)
        have hd : d.now.tick ≤ now := hpast d (by simp)
        refine lookup_sessions_after hold (Expiring.isLive_of_le hlive hd) ?_
        rintro (h | h | h)
        · exact hopens h
        · exact hnone (.inr h)
        · exact hends h

theorem live_session_iff (hclock : ClockReads calls now) :
    (server.run .empty calls).sessions.live? token now = some session ↔
      session.token = token ∧ server.Stands calls session now := by
  rw [ExpiringTable.live?_eq_some_iff]
  constructor
  · rintro ⟨e, hlookup, hlive, rfl⟩
    obtain ⟨session, used, hopened, hused, rfl, rfl⟩ :=
      exists_opened_of_mem (ExpiringTable.mem_entries_of_lookup hlookup)
    have htime := (Expiring.isLive_start_iff _ hclock.readable).1 hlive
    exact ⟨rfl, hopened, used, hused, htime⟩
  · rintro ⟨rfl, hopened, used, hused, htime⟩
    have hlive := Expiring.isLive_start session htime
    exact ⟨_, lookup_of_opened hopened hused hlive hclock.past, hlive, rfl⟩

/-- Calls that do not concern a token make no difference to what is live under it. -/
theorem live?_sessions_append (hclock : ClockReads (calls ++ more) now)
    (hnone : ∀ before c, Came more before c →
      ¬server.Concerns (server.run .empty (calls ++ before)) c token) :
    (server.run .empty (calls ++ more)).sessions.live? token now
      = (server.run .empty calls).sessions.live? token now := by
  induction more using List.reverseRecOn with
  | nil => rw [List.append_nil]
  | append_singleton more d ih =>
    rw [← List.append_assoc] at hclock ⊢
    rw [← ih hclock.of_append fun before c hcame => hnone before c (hcame.append [d])]
    ext session
    rw [live_session_iff hclock, live_session_iff hclock.of_append]
    refine and_congr_right ?_
    rintro rfl
    exact stands_concat_of_not_concerns (hnone more d (came_concat_self _ _))

/-! ### The outcome -/

/-- A token is resolved, to the session that the login put into the store, and can be ended exactly
if that session stands; otherwise it is not found. What does not concern the token changes nothing
in this: calls that fail, purges, and calls with other tokens. -/
theorem session_lifetime (server : LoginServer) (calls : List ServerCall) (token : String)
    (now : Tick) (left : Entropy) (htoken : token ≠ "") (hclock : ClockReads calls now) :
    (∀ session, (server.resolve now token (server.run .empty calls) left).1.1 = .ok session ↔
      session.token = token ∧ server.Stands calls session now)
    ∧ ((logout now token (server.run .empty calls) left).1.1 = .ok () ↔
      ∃ session, session.token = token ∧ server.Stands calls session now)
    ∧ ((∀ session, session.token = token → ¬server.Stands calls session now) →
      (server.resolve now token (server.run .empty calls) left).1.1 = .error .sessionNotFound
        ∧ (logout now token (server.run .empty calls) left).1.1 = .error .sessionNotFound)
    ∧ ∀ (more : List ServerCall) (later : Tick), ClockReads (calls ++ more) later →
      (∀ before c, Came more before c →
        ¬server.Concerns (server.run .empty (calls ++ before)) c token) →
      (server.resolve later token (server.run .empty (calls ++ more)) left).1.1
          = (server.resolve later token (server.run .empty calls) left).1.1
        ∧ (logout later token (server.run .empty (calls ++ more)) left).1.1
          = (logout later token (server.run .empty calls) left).1.1 := by
  simp only [result_of_resolve _ _ _ _ htoken, result_of_logout _ _ _ htoken]
  have hstands : ∀ session, (server.run .empty calls).sessions.live? token now = some session ↔
      session.token = token ∧ server.Stands calls session now := fun _ => live_session_iff hclock
  refine ⟨fun session => ?_, ?_, fun hnone => ?_, fun more later hlater hnone => ?_⟩
  · rw [← hstands]
    cases (server.run .empty calls).sessions.live? token now <;> simp
  · simp only [← hstands]
    cases (server.run .empty calls).sessions.live? token now <;> simp
  · have habsent : (server.run .empty calls).sessions.live? token now = none := by
      refine Option.eq_none_iff_forall_ne_some.2 fun session hsome => ?_
      exact hnone session ((hstands session).1 hsome).1 ((hstands session).1 hsome).2
    rw [habsent]
    exact ⟨rfl, rfl⟩
  · rw [live?_sessions_append hlater hnone]
    exact ⟨rfl, rfl⟩

end LoginServer

namespace Encounter

variable {e : Encounter} {keys : DirectionalKeys} {user : AuthenticatedUser}

/-- After a login that nobody disturbs, its session stands, and no other under its token, until its
time is over. -/
theorem exists_stands_iff (h : e.Honest keys user) (hstate : e.state = .empty) : ∃ envelope,
    ∀ session : SessionRecord, session.token = e.token → ∀ now,
      (e.server.Stands (e.issueCall :: e.between ++ [e.loginCall envelope]) session now ↔
        session = e.record user ∧ now < e.loginAt.tick + e.server.lifetimes.session) := by
  obtain ⟨envelope, hadmits⟩ := exists_admits_loginCall h
  rw [hstate] at hadmits
  refine ⟨envelope, fun session htoken now => ?_⟩
  have hopens : e.server.Opens (e.server.run .empty (e.issueCall :: e.between))
      (e.loginCall envelope) session.token := ⟨e.record user, hadmits, htoken.symm⟩
  constructor
  · rintro ⟨hopened, used, hused, htime⟩
    rcases LoginServer.opened_concat_iff.1 hopened with hadmits' | ⟨hnone, -⟩
    · rcases LoginServer.lastUsed_concat_iff.1 hused with ⟨-, rfl⟩ | ⟨hnone, -⟩
      · exact ⟨hadmits'.unique hadmits, htime⟩
      · exact absurd (.inl hopens) hnone
    · exact absurd hopens hnone
  · rintro ⟨rfl, htime⟩
    refine ⟨LoginServer.opened_concat_iff.2 (.inl hadmits), e.loginAt.tick, ?_, htime⟩
    exact LoginServer.lastUsed_concat_iff.2 (.inl ⟨.inl hopens, rfl⟩)

/-- The session that was opened after the leap second lasts for an hour, and not a tick longer. -/
theorem session_lifetime_leap : ∃ calls : List ServerCall,
    (leap.server.resolve 3601999999999 leap.token (leap.server.run .empty calls) []).1.1
        = .ok ⟨leap.token, ⟨"user", none⟩, ⟨1483228801, 250000000⟩⟩
      ∧ (LoginServer.logout 3601999999999 leap.token (leap.server.run .empty calls) []).1.1 = .ok ()
      ∧ (leap.server.resolve 3602000000000 leap.token (leap.server.run .empty calls) []).1.1
        = .error .sessionNotFound
      ∧ (LoginServer.logout 3602000000000 leap.token (leap.server.run .empty calls) []).1.1
        = .error .sessionNotFound := by
  obtain ⟨envelope, hstands⟩ := exists_stands_iff honest_leap rfl
  have hpast : ∀ c ∈ leap.issueCall :: leap.between ++ [leap.loginCall envelope],
      c.now.tick ≤ leap.loginAt.tick := by
    intro c hc
    simp only [List.cons_append, List.mem_cons, List.mem_append, List.not_mem_nil, or_false] at hc
    rcases hc with rfl | hc | rfl
    · decide
    · exact (honest_leap.others c hc).1
    · exact Int.le_refl _
  have hlifetime : ∀ now, leap.loginAt.tick ≤ now →
      now / Duration.nanosPerSecond < Tick.secondLimit → _ := fun now hle hreadable =>
    LoginServer.session_lifetime leap.server _ leap.token now [] (token_ne_empty honest_leap)
      ⟨hreadable, fun c hc => Int.le_trans (hpast c hc) hle⟩
  have hlast := hlifetime 3601999999999 (by decide) (by decide)
  have hover := hlifetime 3602000000000 (by decide) (by decide)
  have hstill := (hstands (leap.record ⟨"user", none⟩) rfl 3601999999999).2 ⟨rfl, by decide⟩
  have hgone := hover.2.2.1 fun session htoken hsession =>
    absurd ((hstands session htoken _).1 hsession).2 (by decide)
  refine ⟨_, (hlast.1 (leap.record ⟨"user", none⟩)).2 ⟨rfl, hstill⟩, ?_, hgone⟩
  exact hlast.2.1.2 ⟨leap.record ⟨"user", none⟩, rfl, hstill⟩

end Encounter

end SealedLogin
