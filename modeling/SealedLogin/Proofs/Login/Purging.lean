import SealedLogin.Proofs.Login.Effects
import SealedLogin.Proofs.Login.History
import SealedLogin.Proofs.Store.LiveEntries

/-!
# Purging is not observed

Two states with the same live entries are the same to a call: it has the same result and draws the
same bytes on both, and leaves them with the same live entries (`ServerStep.ReadsLive`). A purge
leaves a state as good as it was in this sense, so that a run with purges goes like the one without
(`purging_unobservable`).
-/

namespace SealedLogin

namespace ServerState

variable {s s' : ServerState} {now later : Tick}

/-- No index and no token occurs twice. -/
structure Distinct (s : ServerState) : Prop where
  preKeys : s.preKeys.Distinct
  sessions : s.sessions.Distinct

theorem distinct_empty : empty.Distinct :=
  ⟨ExpiringTable.distinct_empty, ExpiringTable.distinct_empty⟩

/-- At the tick, the states have the same pre-keys and sessions, except for expired ones. -/
structure SameLive (now : Tick) (s s' : ServerState) : Prop where
  preKeys : ExpiringTable.SameLive now s.preKeys s'.preKeys
  sessions : ExpiringTable.SameLive now s.sessions s'.sessions

theorem SameLive.refl (now : Tick) (s : ServerState) : SameLive now s s :=
  ⟨.refl now s.preKeys, .refl now s.sessions⟩

theorem SameLive.of_le (h : SameLive now s s') (hle : now ≤ later) : SameLive later s s' :=
  ⟨h.preKeys.of_le hle, h.sessions.of_le hle⟩

theorem SameLive.purge (h : SameLive later s s') (hs : s.Distinct) (hle : now ≤ later) :
    SameLive later (s.purge now) s' :=
  ⟨h.preKeys.purge hs.preKeys hle, h.sessions.purge hs.sessions hle⟩

end ServerState

/-! ### Calls that read live entries only -/

namespace ServerStep

variable {α β : Type} {now : Tick}

/-- On two states with the same live entries the call has the same result, draws the same bytes, and
leaves states with the same live entries. -/
def ReadsLive (now : Tick) (x : ServerStep α) : Prop :=
  ∀ s s' left, ServerState.SameLive now s s' →
    (x s left).1.1 = (x s' left).1.1 ∧ (x s left).2 = (x s' left).2
      ∧ ServerState.SameLive now (x s left).1.2 (x s' left).1.2

theorem ReadsLive.bind {x : ServerStep α} {f : α → ServerStep β} (h : x.ReadsLive now)
    (hf : ∀ a, (f a).ReadsLive now) : (x >>= f).ReadsLive now := by
  intro s s' left hsame
  have hx := h s s' left hsame
  rw [bind_apply, bind_apply]
  generalize x s left = p at hx ⊢
  generalize x s' left = p' at hx ⊢
  obtain ⟨⟨r, mid⟩, rest⟩ := p
  obtain ⟨⟨r', mid'⟩, rest'⟩ := p'
  obtain ⟨rfl, rfl, hstate⟩ : r = r' ∧ rest = rest' ∧ ServerState.SameLive now mid mid' := hx
  cases r with
  | error e => exact ⟨rfl, rfl, hstate⟩
  | ok a => exact hf a mid mid' rest hstate

theorem readsLive_pure (a : α) : (pure a : ServerStep α).ReadsLive now :=
  fun _ _ _ hsame => ⟨rfl, rfl, hsame⟩

theorem readsLive_throw (e : ProtocolError) : (throw e : ServerStep α).ReadsLive now :=
  fun _ _ _ hsame => ⟨rfl, rfl, hsame⟩

theorem readsLive_ofDrawing (d : Drawing ProtocolError α) : (ofDrawing d).ReadsLive now :=
  fun _ _ _ hsame => ⟨rfl, rfl, hsame⟩

theorem readsLive_ofExcept (r : Except ProtocolError α) : (ofExcept r).ReadsLive now :=
  readsLive_ofDrawing _

theorem readsLive_onPreKeys {f : PreKeyStore → α × PreKeyStore}
    (h : ∀ t t', ExpiringTable.SameLive now t t' →
      (f t).1 = (f t').1 ∧ ExpiringTable.SameLive now (f t).2 (f t').2) :
    (onPreKeys f).ReadsLive now := by
  intro s s' left hsame
  obtain ⟨hresult, hstore⟩ := h _ _ hsame.preKeys
  rw [onPreKeys_apply, onPreKeys_apply, hresult]
  exact ⟨rfl, rfl, hstore, hsame.sessions⟩

theorem readsLive_onSessions {f : SessionStore → α × SessionStore}
    (h : ∀ t t', ExpiringTable.SameLive now t t' →
      (f t).1 = (f t').1 ∧ ExpiringTable.SameLive now (f t).2 (f t').2) :
    (onSessions f).ReadsLive now := by
  intro s s' left hsame
  obtain ⟨hresult, hstore⟩ := h _ _ hsame.sessions
  rw [onSessions_apply, onSessions_apply, hresult]
  exact ⟨rfl, rfl, hsame.preKeys, hstore⟩

end ServerStep

namespace LoginServer

open ServerStep

variable {server : LoginServer}

theorem readsLive_issuePreKey (server : LoginServer) (now : Tick) (identifier : String)
    (request : PreKeyRequest) : (server.issuePreKey now identifier request).ReadsLive now := by
  refine (readsLive_ofExcept _).bind fun client => (readsLive_ofDrawing _).bind fun answer => ?_
  refine (readsLive_onPreKeys fun _ _ hsame => ?_).bind fun _ => readsLive_pure _
  exact ⟨rfl, hsame.insert _ _⟩

theorem readsLive_login (server : LoginServer) (now : Moment) (request : LoginRequest) :
    (server.login now request).ReadsLive now.tick := by
  refine (readsLive_ofExcept _).bind fun index => (readsLive_ofExcept _).bind fun envelope => ?_
  refine (readsLive_onPreKeys fun _ _ hsame => ?_).bind fun found => ?_
  · exact ⟨hsame.live?_eq index, hsame.erase index⟩
  · cases found with
    | none => exact readsLive_throw _
    | some record =>
      refine (readsLive_ofExcept _).bind fun user => (readsLive_ofDrawing _).bind fun opened => ?_
      refine (readsLive_onSessions fun _ _ hsame => ?_).bind fun _ => readsLive_pure _
      exact ⟨rfl, hsame.insert _ _⟩

theorem readsLive_logout (now : Tick) (token : String) : (logout now token).ReadsLive now := by
  refine (readsLive_ofExcept _).bind fun token => ?_
  refine (readsLive_onSessions fun _ _ hsame => ?_).bind fun found => ?_
  · exact ⟨congrArg Option.isSome (hsame.live?_eq token), hsame.erase token⟩
  · cases found
    · exact readsLive_throw _
    · exact readsLive_pure _

/-- The use of a session puts the live entry back with a new end, and leaves an expired one. -/
theorem sameLive_touch {now : Tick} {t t' : SessionStore} (h : ExpiringTable.SameLive now t t')
    (token : String) (ttl : Duration) :
    (SessionStore.touch t token now ttl).1 = (SessionStore.touch t' token now ttl).1
      ∧ ExpiringTable.SameLive now (SessionStore.touch t token now ttl).2
        (SessionStore.touch t' token now ttl).2 := by
  have hfound : (t.lookup token).filter (·.isLive now) = (t'.lookup token).filter (·.isLive now) :=
    h token
  unfold SessionStore.touch
  rw [hfound]
  cases (t'.lookup token).filter (·.isLive now) with
  | none => exact ⟨rfl, h⟩
  | some e => exact ⟨rfl, h.insert _ _⟩

theorem readsLive_resolve (server : LoginServer) (now : Tick) (token : String) :
    (server.resolve now token).ReadsLive now := by
  refine (readsLive_ofExcept _).bind fun token => ?_
  refine (readsLive_onSessions fun _ _ hsame => sameLive_touch hsame token _).bind fun found => ?_
  cases found
  · exact readsLive_throw _
  · exact readsLive_pure _

end LoginServer

/-! ### A server that goes on -/

/-- What a server answers. -/
inductive ServerAnswer where
  | issued (result : Except ProtocolError PreKeyResponse)
  | loggedIn (result : Except ProtocolError LoginResponse)
  | loggedOut (result : Except ProtocolError Unit)
  | resolved (result : Except ProtocolError SessionRecord)
  | purged (result : Except ProtocolError (Nat × Nat))

/-- The request is not a purge. -/
def ServerRequest.isCall : ServerRequest → Bool
  | .purge => false
  | _ => true

theorem ServerRequest.eq_purge_or_isCall (request : ServerRequest) :
    request = .purge ∨ request.isCall = true := by
  cases request <;> simp [isCall]

namespace LoginServer

/-- What a server does on a request at a moment. -/
def perform (server : LoginServer) (request : ServerRequest) (now : Moment) :
    StateT ServerState (StateM Entropy) ServerAnswer :=
  match request with
  | .issue identifier request => .issued <$> (server.issuePreKey now.tick identifier request).run
  | .login request => .loggedIn <$> (server.login now request).run
  | .logout token => .loggedOut <$> (logout now.tick token).run
  | .resolve token => .resolved <$> (server.resolve now.tick token).run
  | .purge => .purged <$> (purge now.tick).run

/-- What a server keeps, and the random bytes that are left, after requests one after another. All
of them draw from one stream. -/
def serve (server : LoginServer) (start : ServerState × Entropy)
    (requests : List (ServerRequest × Moment)) : ServerState × Entropy :=
  requests.foldl (fun p r => ((server.perform r.1 r.2 p.1 p.2).1.2,
    (server.perform r.1 r.2 p.1 p.2).2)) start

variable {server : LoginServer} {s s' : ServerState} {left : Entropy} {request : ServerRequest}
  {now : Moment} {requests : List (ServerRequest × Moment)}

theorem state_of_perform (server : LoginServer) (request : ServerRequest) (now : Moment)
    (s : ServerState) (left : Entropy) :
    (server.perform request now s left).1.2 = server.after s ⟨request, now, left⟩ := by
  cases request <;> rfl

theorem serve_concat (server : LoginServer) (start : ServerState × Entropy)
    (requests : List (ServerRequest × Moment)) (request : ServerRequest) (now : Moment) :
    server.serve start (requests ++ [(request, now)]) =
      ((server.perform request now (server.serve start requests).1
          (server.serve start requests).2).1.2,
        (server.perform request now (server.serve start requests).1
          (server.serve start requests).2).2) := by
  rw [serve, List.foldl_append]
  rfl

/-- A request other than a purge sees live entries only. -/
theorem perform_of_sameLive (server : LoginServer) (left : Entropy)
    (hcall : request.isCall = true) (hsame : ServerState.SameLive now.tick s s') :
    (server.perform request now s left).1.1 = (server.perform request now s' left).1.1
      ∧ (server.perform request now s left).2 = (server.perform request now s' left).2
      ∧ ServerState.SameLive now.tick (server.perform request now s left).1.2
        (server.perform request now s' left).1.2 := by
  cases request with
  | issue identifier request =>
    obtain ⟨hresult, h⟩ := readsLive_issuePreKey server now.tick identifier request s s' left hsame
    exact ⟨congrArg ServerAnswer.issued hresult, h⟩
  | login request =>
    obtain ⟨hresult, h⟩ := readsLive_login server now request s s' left hsame
    exact ⟨congrArg ServerAnswer.loggedIn hresult, h⟩
  | logout token =>
    obtain ⟨hresult, h⟩ := readsLive_logout now.tick token s s' left hsame
    exact ⟨congrArg ServerAnswer.loggedOut hresult, h⟩
  | resolve token =>
    obtain ⟨hresult, h⟩ := readsLive_resolve server now.tick token s s' left hsame
    exact ⟨congrArg ServerAnswer.resolved hresult, h⟩
  | purge => cases hcall

theorem distinct_after (server : LoginServer) (hs : s.Distinct) (c : ServerCall) :
    (server.after s c).Distinct := by
  constructor
  · cases preKeyEffect server s c with
    | put _ store => exact store ▸ hs.preKeys.insert _ _
    | erase _ store => exact store ▸ hs.preKeys.erase _
    | keep _ store => exact store ▸ hs.preKeys
    | purge _ store => exact store ▸ hs.preKeys.purge _
  · cases sessionEffect server s c with
    | put _ store => exact store ▸ hs.sessions.insert _ _
    | renew _ _ store => exact store ▸ hs.sessions.insert _ _
    | erase _ _ store => exact store ▸ hs.sessions.erase _
    | keep _ store => exact store ▸ hs.sessions
    | purge _ store => exact store ▸ hs.sessions.purge _

theorem distinct_serve (server : LoginServer) (hs : s.Distinct) (left : Entropy)
    (requests : List (ServerRequest × Moment)) : (server.serve (s, left) requests).1.Distinct := by
  induction requests using List.reverseRecOn with
  | nil => exact hs
  | append_singleton requests r ih =>
    rw [serve_concat, state_of_perform]
    exact distinct_after server ih _

/-- The requests without the purges among them. -/
def unpurged (requests : List (ServerRequest × Moment)) : List (ServerRequest × Moment) :=
  requests.filter (·.1.isCall)

theorem unpurged_concat_of_isCall (h : request.isCall = true) :
    unpurged (requests ++ [(request, now)]) = unpurged requests ++ [(request, now)] := by
  simp [unpurged, h]

theorem unpurged_concat_purge : unpurged (requests ++ [(.purge, now)]) = unpurged requests := by
  simp [unpurged, ServerRequest.isCall]

/-- The moments of the requests follow each other on the monotonic clock. -/
def InOrder (requests : List (ServerRequest × Moment)) : Prop :=
  requests.Pairwise fun r r' => r.2.tick ≤ r'.2.tick

/-- A run with purges leaves the same random bytes as the one without, and from its last moment on
the same live entries. -/
theorem serve_unpurged (server : LoginServer) (hs : s.Distinct) (left : Entropy)
    (hclock : InOrder requests) :
    (server.serve (s, left) requests).2 = (server.serve (s, left) (unpurged requests)).2
      ∧ ∀ now : Tick, (∀ r ∈ requests, r.2.tick ≤ now) →
        ServerState.SameLive now (server.serve (s, left) requests).1
          (server.serve (s, left) (unpurged requests)).1 := by
  induction requests using List.reverseRecOn with
  | nil => exact ⟨rfl, fun now _ => .refl now s⟩
  | append_singleton requests r ih =>
    obtain ⟨request, moment⟩ := r
    obtain ⟨hbefore, -, hlast⟩ := List.pairwise_append.1 hclock
    obtain ⟨hrest, hsame⟩ := ih hbefore
    have hdistinct := distinct_serve server hs left requests
    rcases request.eq_purge_or_isCall with rfl | hcall
    · rw [unpurged_concat_purge, serve_concat]
      refine ⟨hrest, fun now hpast => ?_⟩
      have hold := hsame now fun r hr => hpast r (List.mem_append_left _ hr)
      exact hold.purge hdistinct (hpast (.purge, moment) (by simp))
    · have hnow := hsame moment.tick fun r hr => hlast r hr _ (List.mem_singleton_self _)
      obtain ⟨-, hdrawn, hstate⟩ := perform_of_sameLive server
        (server.serve (s, left) requests).2 hcall hnow
      rw [unpurged_concat_of_isCall hcall, serve_concat, serve_concat, ← hrest]
      refine ⟨hdrawn, fun now hpast => hstate.of_le ?_⟩
      exact hpast (request, moment) (by simp)

/-! ### The outcome -/

/-- What a purge answers and leaves: the numbers of the entries that have expired, and the others.
It draws nothing. -/
theorem perform_purge (server : LoginServer) (now : Moment) (s : ServerState) (left : Entropy) :
    server.perform .purge now s left =
      ((.purged (.ok (s.preKeys.entries.countP fun p => !p.2.isLive now.tick,
          s.sessions.entries.countP fun p => !p.2.isLive now.tick)), s.purge now.tick), left) := by
  rw [← ExpiringTable.expiredCount_eq_countP, ← ExpiringTable.expiredCount_eq_countP]
  rfl

/-- Let requests come one after another on the monotonic clock, purges among them. Each request that
is no purge has the same answer and leaves the same random bytes as if there had been no purges, and
after each step the same entries are live, with the same ends. A purge answers how many entries have
expired, and leaves exactly the others. -/
theorem purging_unobservable (server : LoginServer) (s : ServerState) (left : Entropy)
    (requests : List (ServerRequest × Moment)) (hs : s.Distinct) (hclock : InOrder requests) :
    (∀ front request now, Came requests front (request, now) → request.isCall = true →
      ∀ p q, server.serve (s, left) front = p → server.serve (s, left) (unpurged front) = q →
      (server.perform request now p.1 p.2).1.1 = (server.perform request now q.1 q.2).1.1
        ∧ (server.perform request now p.1 p.2).2 = (server.perform request now q.1 q.2).2)
    ∧ (∀ front, front <+: requests → ∀ now : Tick, (∀ r ∈ front, r.2.tick ≤ now) →
      ∀ p q, server.serve (s, left) front = p → server.serve (s, left) (unpurged front) = q →
      p.2 = q.2
        ∧ (∀ index e, e.isLive now = true →
          ((index, e) ∈ p.1.preKeys.entries ↔ (index, e) ∈ q.1.preKeys.entries))
        ∧ ∀ token e, e.isLive now = true →
          ((token, e) ∈ p.1.sessions.entries ↔ (token, e) ∈ q.1.sessions.entries))
    ∧ ∀ now s left, ∃ s', server.perform .purge now s left =
        ((.purged (.ok (s.preKeys.entries.countP fun p => !p.2.isLive now.tick,
          s.sessions.entries.countP fun p => !p.2.isLive now.tick)), s'), left)
      ∧ (∀ index e, (index, e) ∈ s'.preKeys.entries ↔
        (index, e) ∈ s.preKeys.entries ∧ e.isLive now.tick = true)
      ∧ ∀ token e, (token, e) ∈ s'.sessions.entries ↔
        (token, e) ∈ s.sessions.entries ∧ e.isLive now.tick = true := by
  refine ⟨?_, ?_, fun now s left => ⟨s.purge now.tick, perform_purge server now s left, ?_, ?_⟩⟩
  · rintro front request now hcame hcall _ _ rfl rfl
    have horder := List.pairwise_append.1 (List.Pairwise.sublist hcame.sublist hclock)
    obtain ⟨hrest, hsame⟩ := serve_unpurged server hs left horder.1
    have hnow := hsame now.tick fun r hr => horder.2.2 r hr _ (List.mem_singleton_self _)
    rw [← hrest]
    obtain ⟨hanswer, hdrawn, -⟩ := perform_of_sameLive server _ hcall hnow
    exact ⟨hanswer, hdrawn⟩
  · rintro front hfront now hpast _ _ rfl rfl
    have horder : InOrder front := List.Pairwise.sublist hfront.sublist hclock
    obtain ⟨hrest, hsame⟩ := serve_unpurged server hs left horder
    have hdistinct := distinct_serve server hs left
    refine ⟨hrest, fun index e hlive => ?_, fun token e hlive => ?_⟩
    · exact (hsame now hpast).preKeys.mem_entries_iff (hdistinct _).preKeys
        (hdistinct _).preKeys hlive
    · exact (hsame now hpast).sessions.mem_entries_iff (hdistinct _).sessions
        (hdistinct _).sessions hlive
  · exact fun _ _ => ExpiringTable.mem_entries_purge_iff
  · exact fun _ _ => ExpiringTable.mem_entries_purge_iff

/-- A session that has expired leaves the store by the purge, and the other one answers as if it had
been there all along. -/
theorem purging_unobservable_expired :
    let server : LoginServer := ⟨fun _ => .ok none, .standard⟩
    let start : ServerState := ⟨.empty, ⟨[("a", ⟨default, some 5⟩), ("b", ⟨default, none⟩)]⟩⟩
    let purge : ServerRequest × Moment := (.purge, ⟨default, 10⟩)
    let p := server.serve (start, []) [purge]
    p.1.sessions.size = 1 ∧ start.sessions.size = 2
      ∧ (server.perform (.resolve "b") ⟨default, 10⟩ p.1 p.2).1.1
        = (server.perform (.resolve "b") ⟨default, 10⟩ start []).1.1 := by
  intro server start purge p
  have hstart : start.Distinct := ⟨List.nodup_nil, by unfold ExpiringTable.Distinct; decide⟩
  have hclock : InOrder [purge, (.resolve "b", ⟨default, 10⟩)] := by unfold InOrder; decide
  obtain ⟨hanswer, -⟩ := (purging_unobservable server start [] _ hstart hclock).1 [purge]
    (.resolve "b") ⟨default, 10⟩ (came_concat_self _ _) rfl _ _ rfl rfl
  exact ⟨rfl, rfl, hanswer⟩

end LoginServer

end SealedLogin
