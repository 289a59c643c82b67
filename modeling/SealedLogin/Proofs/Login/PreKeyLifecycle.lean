import SealedLogin.Proofs.Login.Failures
import SealedLogin.Proofs.Login.Handshake
import SealedLogin.Proofs.Login.History

/-!
# The life of a pre-key

A record waits from the call that issues it until a login takes it or the clock reaches its end
(`live_preKey_iff`). If no index is issued twice, this tells exactly when a login finds nothing, and
that for each index at most one login ever gets as far as its envelope (`preKey_lifecycle`).
-/

namespace SealedLogin

/-! ### Finding nothing -/

theorem CredentialFile.authenticate_ne_preKeyNotFound (file : CredentialFile)
    (attempt : LoginAttempt) : file.authenticate attempt ≠ .error .preKeyNotFound := by
  intro h
  obtain ⟨_, he⟩ := eq_store_of_authenticate h
  cases he

namespace LoginServer

variable {server : LoginServer} {s : ServerState} {left : Entropy} {calls : List ServerCall}
  {d : ServerCall} {index : String} {record : PreKeyRecord} {now issued : Tick}
  {e : Expiring PreKeyRecord}

theorem answerLogin_eq_preKeyNotFound_iff {now : Moment} {envelope : String} :
    (server.answerLogin now envelope record s left).1.1 = .error .preKeyNotFound ↔
      server.AuthenticatorFails now.wall record envelope .preKeyNotFound := by
  constructor
  · intro h
    rcases answerLogin_eq_error h with hread | ⟨-, he⟩
    · rcases eq_of_readLogin_eq_error hread with he | he | hfails
      · cases he
      · cases he
      · exact hfails
    · cases he
  · intro h
    rw [answerLogin_of_readLogin_eq_error (readLogin_of_authenticatorFails h)]

theorem login_eq_preKeyNotFound_iff {now : Moment} {request : LoginRequest} (hi : request.i ≠ "")
    (hd : request.d ≠ "") : (server.login now request s left).1.1 = .error .preKeyNotFound ↔
      (∀ record, s.preKeys.live? request.i now.tick ≠ some record)
        ∨ ∃ record, s.preKeys.live? request.i now.tick = some record
          ∧ server.AuthenticatorFails now.wall record request.d .preKeyNotFound := by
  rw [login_apply hi hd]
  cases s.preKeys.live? request.i now.tick with
  | none => simp
  | some record => simp [answerLogin_eq_preKeyNotFound_iff]

/-! ### Which record waits -/

/-- Of the calls that touch the index of the record, the latest one issued the record, at the
tick. -/
def Waits (server : LoginServer) (calls : List ServerCall) (record : PreKeyRecord) (issued : Tick) :
    Prop :=
  ∃ before c,
    Latest (fun before c => server.Touches (server.run .empty before) c record.index) calls before c
      ∧ server.Issues (server.run .empty before) c record ∧ c.now.tick = issued

theorem waits_concat_iff : server.Waits (calls ++ [d]) record issued ↔
    server.Issues (server.run .empty calls) d record ∧ d.now.tick = issued
      ∨ ¬server.Touches (server.run .empty calls) d record.index
        ∧ server.Waits calls record issued := by
  unfold Waits
  rw [exists_latest_concat_iff, and_iff_right_of_imp]
  exact fun h => .inl h.1.issuesIndex

/-- What is in the store waits there, live or not. -/
theorem exists_waits_of_mem (h : (index, e) ∈ (server.run .empty calls).preKeys.entries) :
    ∃ record issued, server.Waits calls record issued ∧ index = record.index
      ∧ e = .start record issued server.lifetimes.preKey := by
  induction calls using List.reverseRecOn with
  | nil => cases h
  | append_singleton calls d ih =>
    rw [run_concat] at h
    rcases mem_preKeys_after h with ⟨record, hissues, rfl, rfl⟩ | ⟨hnone, hold⟩
    · exact ⟨record, _, waits_concat_iff.2 (.inl ⟨hissues, rfl⟩), rfl, rfl⟩
    · obtain ⟨record, issued, hwaits, rfl, rfl⟩ := ih hold
      exact ⟨record, issued, waits_concat_iff.2 (.inr ⟨hnone, hwaits⟩), rfl, rfl⟩

theorem exists_waits_of_live (h : (server.run .empty calls).preKeys.live? index now = some record) :
    index = record.index ∧ ∃ issued, server.Waits calls record issued := by
  obtain ⟨e, hlookup, -, rfl⟩ := ExpiringTable.live?_eq_some_iff.1 h
  obtain ⟨record, issued, hwaits, rfl, rfl⟩ :=
    exists_waits_of_mem (ExpiringTable.mem_entries_of_lookup hlookup)
  exact ⟨rfl, issued, hwaits⟩

/-- A record that waits is in the store until the clock has passed its end. -/
theorem lookup_of_waits (h : server.Waits calls record issued)
    (hlive : (Expiring.start record issued server.lifetimes.preKey).isLive now = true)
    (hpast : ∀ c ∈ calls, c.now.tick ≤ now) :
    (server.run .empty calls).preKeys.lookup record.index
      = some (.start record issued server.lifetimes.preKey) := by
  -- What is live now was live at each call, so that no purge on the way has removed it.
  induction calls using List.reverseRecOn with
  | nil =>
    obtain ⟨before, c, hlatest, -⟩ := h
    exact absurd hlatest.came not_came_nil
  | append_singleton calls d ih =>
    rw [run_concat]
    rcases waits_concat_iff.1 h with ⟨hissues, rfl⟩ | ⟨hnone, hwaits⟩
    · exact lookup_preKeys_of_issues hissues
    · have hold := ih hwaits fun c hc => hpast c (List.mem_append_left _ hc)
      have hd : d.now.tick ≤ now := hpast d (by simp)
      exact lookup_preKeys_after hold (Expiring.isLive_of_le hlive hd) hnone

theorem live_preKey_iff (hclock : ClockReads calls now) :
    (server.run .empty calls).preKeys.live? index now = some record ↔
      record.index = index ∧ ∃ issued, server.Waits calls record issued
        ∧ now < issued + server.lifetimes.preKey := by
  rw [ExpiringTable.live?_eq_some_iff]
  constructor
  · rintro ⟨e, hlookup, hlive, rfl⟩
    obtain ⟨record, issued, hwaits, rfl, rfl⟩ :=
      exists_waits_of_mem (ExpiringTable.mem_entries_of_lookup hlookup)
    exact ⟨rfl, issued, hwaits, (Expiring.isLive_start_iff _ hclock.readable).1 hlive⟩
  · rintro ⟨rfl, issued, hwaits, htime⟩
    have hlive := Expiring.isLive_start record htime
    exact ⟨_, lookup_of_waits hwaits hlive hclock.past, hlive, rfl⟩

/-! ### One login for each index -/

/-- No index is issued twice. -/
def IndicesDistinct (server : LoginServer) (calls : List ServerCall) : Prop :=
  ∀ before c before' c' index, Came calls before c → Came calls before' c' →
    server.IssuesIndex (server.run .empty before) c index →
    server.IssuesIndex (server.run .empty before') c' index → before = before'

theorem indicesDistinct_singleton (server : LoginServer) (c : ServerCall) :
    server.IndicesDistinct [c] := by
  have hfirst : ∀ {before d}, Came [c] before d → before = [] := fun hcame =>
    List.eq_nil_of_length_eq_zero (Nat.lt_one_iff.1 hcame.length_lt)
  intro before _ before' _ _ hcame hcame' _ _
  rw [hfirst hcame, hfirst hcame']

theorem not_issuesIndex_login {request : LoginRequest} {moment : Moment} :
    ¬server.IssuesIndex s ⟨.login request, moment, left⟩ index := by
  rintro ⟨_, _, _, hc, -⟩
  cases hc

theorem IndicesDistinct.login (h : server.IndicesDistinct calls) (request : LoginRequest)
    (moment : Moment) (left : Entropy) :
    server.IndicesDistinct (calls ++ [⟨.login request, moment, left⟩]) := by
  intro before c before' c' index hcame hcame' hissues hissues'
  rcases came_concat_iff.1 hcame with ⟨rfl, rfl⟩ | hold
  · exact absurd hissues not_issuesIndex_login
  · rcases came_concat_iff.1 hcame' with ⟨rfl, rfl⟩ | hold'
    · exact absurd hissues' not_issuesIndex_login
    · exact h _ _ _ _ _ hold hold' hissues hissues'

/-- Why nothing is found under an index: it was not issued, or a login has named it since, whatever
came of that, or its time is over. -/
inductive Gone (server : LoginServer) (calls : List ServerCall) (index : String) (now : Tick) :
    Prop where
  | unissued (h : ∀ before c, Came calls before c →
      ¬server.IssuesIndex (server.run .empty before) c index)
  | spent {before before' : List ServerCall} {c c' : ServerCall} (came : Came calls before c)
      (issues : server.IssuesIndex (server.run .empty before) c index)
      (came' : Came calls before' c') (later : Came before' before c) (spends : c'.Spends index)
  | expired {before : List ServerCall} {c : ServerCall} (came : Came calls before c)
      (issues : server.IssuesIndex (server.run .empty before) c index)
      (elapsed : c.now.tick + server.lifetimes.preKey ≤ now)

/-- The call is a login that finds a record and goes on to its envelope. -/
def Examines (s : ServerState) (c : ServerCall) (index : String) : Prop :=
  c.Spends index ∧ ∃ record, s.preKeys.live? index c.now.tick = some record

theorem not_gone_of_live {record : PreKeyRecord} (hdistinct : server.IndicesDistinct calls)
    (hclock : ClockReads calls now)
    (hlive : (server.run .empty calls).preKeys.live? index now = some record) :
    ¬server.Gone calls index now := by
  intro hgone
  obtain ⟨rfl, issued, hwaits, htime⟩ := (live_preKey_iff hclock).1 hlive
  obtain ⟨before, c, hlatest, hissues, rfl⟩ := hwaits
  cases hgone with
  | unissued hnone => exact hnone before c hlatest.came hissues.issuesIndex
  | spent came issues came' later spends =>
    obtain rfl := hdistinct _ _ _ _ _ came hlatest.came issues hissues.issuesIndex
    obtain rfl := came.unique hlatest.came
    exact hlatest.last _ _ later came' (.inr spends)
  | expired came issues elapsed =>
    obtain rfl := hdistinct _ _ _ _ _ came hlatest.came issues hissues.issuesIndex
    obtain rfl := came.unique hlatest.came
    exact absurd htime (Int.not_lt.2 elapsed)

/-- The call that issued an index is the latest that touched it, if the index is not gone: nobody
has issued it again, and a login since would have spent it. -/
theorem exists_live_of_not_gone (hdistinct : server.IndicesDistinct calls)
    (hclock : ClockReads calls now) (hgone : ¬server.Gone calls index now) :
    ∃ record, (server.run .empty calls).preKeys.live? index now = some record := by
  obtain ⟨before, c, hcame, hissues⟩ : ∃ before c, Came calls before c
      ∧ server.IssuesIndex (server.run .empty before) c index := by
    by_contra hnone
    exact hgone (.unissued fun before c hcame hissues => hnone ⟨before, c, hcame, hissues⟩)
  obtain ⟨record, hrecord, rfl⟩ := issuesIndex_iff.1 hissues
  have htime : now < c.now.tick + server.lifetimes.preKey :=
    Int.not_le.1 fun hle => hgone (.expired hcame hissues hle)
  refine ⟨record, (live_preKey_iff hclock).2 ⟨rfl, c.now.tick, ?_, htime⟩⟩
  refine ⟨before, c, ⟨hcame, .inl hissues, fun before' c' hlater hcame' => ?_⟩, hrecord, rfl⟩
  rintro (hissues' | hspends)
  · obtain rfl := hdistinct _ _ _ _ _ hcame hcame' hissues hissues'
    exact not_came_self hlater
  · exact hgone (.spent hcame hissues hcame' hlater hspends)

theorem exists_live_iff_not_gone (hdistinct : server.IndicesDistinct calls)
    (hclock : ClockReads calls now) :
    (∃ record, (server.run .empty calls).preKeys.live? index now = some record) ↔
      ¬server.Gone calls index now :=
  ⟨fun ⟨_, hlive⟩ => not_gone_of_live hdistinct hclock hlive,
    exists_live_of_not_gone hdistinct hclock⟩

/-- An index that a login has found a record under is not found again by a later one. -/
theorem not_came_of_examines {before before' : List ServerCall} {c c' : ServerCall}
    (hdistinct : server.IndicesDistinct calls) (hcame : Came calls before c)
    (hcame' : Came calls before' c') (h : Examines (server.run .empty before) c index)
    (h' : Examines (server.run .empty before') c' index) : ¬Came before' before c := by
  intro hfirst
  obtain ⟨hspends, record, hlive⟩ := h
  obtain ⟨-, record', hlive'⟩ := h'
  obtain ⟨hindex, -, b, d, hlatest, hissues, -⟩ := exists_waits_of_live hlive
  obtain ⟨rfl, -, b', d', hlatest', hissues', -⟩ := exists_waits_of_live hlive'
  rcases hlatest'.came.trichotomy hfirst with ⟨rfl, rfl⟩ | hspent | hagain
  · exact hissues'.not_spends _ hspends
  · exact hlatest'.last _ _ hspent hfirst (.inr hspends)
  · -- The index was issued before the first login and again after it.
    have hsame : b = b' := hdistinct _ _ _ _ _ (hcame.trans hlatest.came)
      (hcame'.trans hlatest'.came) (hindex ▸ hissues.issuesIndex) hissues'.issuesIndex
    have hlt := hlatest.came.length_lt
    have hlt' := hagain.length_lt
    rw [hsame] at hlt
    omega

theorem examines_unique {before before' : List ServerCall} {c c' : ServerCall}
    (hdistinct : server.IndicesDistinct calls) (hcame : Came calls before c)
    (hcame' : Came calls before' c') (h : Examines (server.run .empty before) c index)
    (h' : Examines (server.run .empty before') c' index) : before = before' := by
  rcases hcame.trichotomy hcame' with ⟨heq, -⟩ | hfirst | hfirst
  · exact heq
  · exact absurd hfirst (not_came_of_examines hdistinct hcame hcame' h h')
  · exact absurd hfirst (not_came_of_examines hdistinct hcame' hcame h' h)

theorem login_eq_preKeyNotFound_iff_gone {now : Moment} {request : LoginRequest}
    (hdistinct : server.IndicesDistinct calls) (hclock : ClockReads calls now.tick)
    (hi : request.i ≠ "") (hd : request.d ≠ "") :
    (server.login now request (server.run .empty calls) left).1.1 = .error .preKeyNotFound ↔
      server.Gone calls request.i now.tick
        ∨ ∃ record, (server.run .empty calls).preKeys.live? request.i now.tick = some record
          ∧ server.AuthenticatorFails now.wall record request.d .preKeyNotFound := by
  rw [login_eq_preKeyNotFound_iff hi hd, ← not_exists, exists_live_iff_not_gone hdistinct hclock,
    Classical.not_not]

theorem login_eq_preKeyNotFound_iff_gone_of_authenticate_ne {now : Moment} {request : LoginRequest}
    (hown : ∀ attempt, server.authenticate attempt ≠ .error .preKeyNotFound)
    (hdistinct : server.IndicesDistinct calls) (hclock : ClockReads calls now.tick)
    (hi : request.i ≠ "") (hd : request.d ≠ "") :
    (server.login now request (server.run .empty calls) left).1.1 = .error .preKeyNotFound ↔
      server.Gone calls request.i now.tick := by
  rw [login_eq_preKeyNotFound_iff_gone hdistinct hclock hi hd, or_iff_left]
  rintro ⟨_, -, _, attempt, -, -, hfails⟩
  exact hown attempt hfails

/-! ### The outcome -/

/-- Let no index be issued twice. A login that has an index and an envelope finds no pre-key exactly
if the pre-key is gone; an authenticator that reports the same failure of its own accord is told
apart, and a credential file never does (`CredentialFile.authenticate_ne_preKeyNotFound`). At most
one login ever gets as far as its envelope, and one without an envelope changes nothing. -/
theorem preKey_lifecycle (server : LoginServer) (calls : List ServerCall)
    (hdistinct : server.IndicesDistinct calls) :
    (∀ (now : Moment) (request : LoginRequest) (left : Entropy), request.i ≠ "" → request.d ≠ "" →
      ClockReads calls now.tick →
      ((server.login now request (server.run .empty calls) left).1.1 = .error .preKeyNotFound ↔
        server.Gone calls request.i now.tick
          ∨ ∃ record, (server.run .empty calls).preKeys.live? request.i now.tick = some record
            ∧ server.AuthenticatorFails now.wall record request.d .preKeyNotFound)
      ∧ ((∀ attempt, server.authenticate attempt ≠ .error .preKeyNotFound) →
        ((server.login now request (server.run .empty calls) left).1.1 = .error .preKeyNotFound ↔
          server.Gone calls request.i now.tick)))
    ∧ (∀ before c before' c' index, Came calls before c → Came calls before' c' →
      Examines (server.run .empty before) c index →
      Examines (server.run .empty before') c' index → before = before' ∧ c = c')
    ∧ ∀ (now : Moment) (request : LoginRequest) (left : Entropy), request.d = "" →
      (server.login now request (server.run .empty calls) left).1.2 = server.run .empty calls := by
  refine ⟨fun now request left hi hd hclock => ⟨?_, fun hown => ?_⟩, ?_, ?_⟩
  · exact login_eq_preKeyNotFound_iff_gone hdistinct hclock hi hd
  · exact login_eq_preKeyNotFound_iff_gone_of_authenticate_ne hown hdistinct hclock hi hd
  · intro before c before' c' index hcame hcame' h h'
    obtain rfl := examines_unique hdistinct hcame hcame' h h'
    exact ⟨rfl, hcame.unique hcame'⟩
  · exact fun now request left hd => state_of_login_of_missing (.inr hd)

end LoginServer

namespace Encounter

/-- A login on the index of a client that has just got it, with some other envelope. -/
def leapAttempt (envelope : String) : ServerCall :=
  ⟨.login ⟨leap.index, envelope⟩, leap.loginAt, []⟩

theorem clockReads_leap {calls : List ServerCall}
    (h : ∀ c ∈ calls, c = leap.issueCall ∨ ∃ envelope, c = leapAttempt envelope) :
    ClockReads calls leap.loginAt.tick := by
  refine ⟨by decide, fun c hc => ?_⟩
  rcases h c hc with rfl | ⟨_, rfl⟩
  · decide
  · exact Int.le_refl _

theorem not_gone_leap : ¬leap.server.Gone [leap.issueCall, leapAttempt ""] leap.index
    leap.loginAt.tick := by
  have hissue := run_issueCall honest_leap rfl rfl
  have hblank : leap.server.run .empty [leap.issueCall, leapAttempt ""] = leap.issued leapKeys := by
    rw [← List.singleton_append, LoginServer.run_concat, hissue, LoginServer.after, leapAttempt]
    exact LoginServer.state_of_login_of_missing (.inr rfl)
  refine (LoginServer.exists_live_iff_not_gone ?_ (clockReads_leap (by simp))).1
    ⟨leap.preKey leapKeys, ?_⟩
  · exact (LoginServer.indicesDistinct_singleton _ _).login _ _ _
  · rw [hblank]
    exact ExpiringTable.live?_insert_start _ _ _ honest_leap.in_time

theorem gone_leap : leap.server.Gone [leap.issueCall, leapAttempt "", leapAttempt "00"] leap.index
    leap.loginAt.tick := by
  have hissues : leap.server.IssuesIndex .empty leap.issueCall leap.index :=
    (issues_issueCall honest_leap).issuesIndex
  have hissue : Came [leap.issueCall] [] leap.issueCall := came_concat_self [] _
  refine .spent ((hissue.append [leapAttempt ""]).append [leapAttempt "00"]) hissues
    (came_concat_self [leap.issueCall, leapAttempt ""] (leapAttempt "00"))
    (hissue.append [leapAttempt ""]) ⟨_, rfl, rfl, ?_, by decide⟩
  exact leap.index_ne_empty

/-- An envelope that is no envelope uses the index up, an empty one does not. -/
theorem preKey_lifecycle_leap :
    (leap.server.login leap.loginAt ⟨leap.index, "00"⟩
        (leap.server.run .empty [leap.issueCall, leapAttempt ""]) []).1.1 ≠ .error .preKeyNotFound
    ∧ (leap.server.login leap.loginAt ⟨leap.index, "00"⟩
        (leap.server.run .empty [leap.issueCall, leapAttempt "", leapAttempt "00"]) []).1.1
      = .error .preKeyNotFound := by
  have hown : ∀ attempt, leap.server.authenticate attempt ≠ .error .preKeyNotFound := by
    intro attempt
    show (if attempt = ⟨"a", "", none⟩ then _ else _) ≠ _
    split <;> nofun
  have hblank := (LoginServer.indicesDistinct_singleton leap.server leap.issueCall).login
    ⟨leap.index, ""⟩ leap.loginAt []
  have hspent := hblank.login ⟨leap.index, "00"⟩ leap.loginAt []
  constructor
  · have hlogin := (LoginServer.preKey_lifecycle leap.server _ hblank).1 leap.loginAt
      ⟨leap.index, "00"⟩ [] leap.index_ne_empty (by decide)
      (clockReads_leap (by simp [leapAttempt]))
    exact mt (hlogin.2 hown).1 not_gone_leap
  · have hlogin := (LoginServer.preKey_lifecycle leap.server _ hspent).1 leap.loginAt
      ⟨leap.index, "00"⟩ [] leap.index_ne_empty (by decide)
      (clockReads_leap (by simp [leapAttempt]))
    exact (hlogin.2 hown).2 gone_leap

theorem Seals.authenticatorFails {e : Encounter} {keys : DirectionalKeys}
    {user : AuthenticatedUser} {server : LoginServer} {envelope : String} {fault : ProtocolError}
    (hseals : e.Seals keys envelope) (h : e.Honest keys user)
    (hlifetimes : server.lifetimes = e.server.lifetimes)
    (hfault : server.authenticate e.credentials.attempt = .error fault) :
    server.AuthenticatorFails e.loginAt.wall (e.preKey keys) envelope fault := by
  refine ⟨_, _, ?_, ofPayloads_eq h, hfault⟩
  rw [hlifetimes]
  exact hseals.opens

/-- The server of the login after the leap second, with an authenticator that always fails. -/
def leapFailing (fault : ProtocolError) : LoginServer :=
  ⟨fun _ => .error fault, leap.server.lifetimes⟩

/-- An authenticator may itself fail as if there were no pre-key. Then the login of a client that
has just got its index, and has sealed its credentials as it should, is answered as if the index
were gone. -/
theorem preKey_denied_leap : ∃ envelope, leap.Seals leapKeys envelope
    ∧ (leapFailing .preKeyNotFound).IndicesDistinct [leap.issueCall]
    ∧ ClockReads [leap.issueCall] leap.loginAt.tick
    ∧ leap.index ≠ "" ∧ envelope ≠ ""
    ∧ ¬(leapFailing .preKeyNotFound).Gone [leap.issueCall] leap.index leap.loginAt.tick
    ∧ ((leapFailing .preKeyNotFound).login leap.loginAt ⟨leap.index, envelope⟩
        ((leapFailing .preKeyNotFound).run .empty [leap.issueCall]) []).1.1
      = .error .preKeyNotFound := by
  obtain ⟨envelope, hseals⟩ := exists_seals honest_leap
  have hclock : ClockReads [leap.issueCall] leap.loginAt.tick := clockReads_leap (by simp)
  have hdistinct := (leapFailing .preKeyNotFound).indicesDistinct_singleton leap.issueCall
  have hlive : ((leapFailing .preKeyNotFound).run .empty [leap.issueCall]).preKeys.live? leap.index
      leap.loginAt.tick = some (leap.preKey leapKeys) := live_preKey_issueCall honest_leap rfl rfl
  have hfails : (leapFailing .preKeyNotFound).AuthenticatorFails leap.loginAt.wall
      (leap.preKey leapKeys) envelope .preKeyNotFound :=
    hseals.authenticatorFails honest_leap rfl rfl
  refine ⟨envelope, hseals, hdistinct, hclock, leap.index_ne_empty, hseals.ne_empty, ?_, ?_⟩
  · exact LoginServer.not_gone_of_live hdistinct hclock hlive
  · exact (LoginServer.login_eq_preKeyNotFound_iff leap.index_ne_empty hseals.ne_empty).2
      (.inr ⟨_, hlive, hfails⟩)

end Encounter

end SealedLogin
